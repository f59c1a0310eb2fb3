import PhpHandbook.Proofs.Provenance

/-!
# Rules for the methods of traits

A class takes over the methods of a trait under the rules that are for that trait.  A rule may say
which one it is for; one that does not is for the first used trait that declares the method.  So if
one used trait has the method, it matters whether the trait declares it or has it from another
trait: in the first case the rule is as good as one with the name of the trait, in the second it is
for none.

The argument compares two registries that differ in how declarations use traits.  What a declaration
takes over from a trait depends on the rules for that trait alone.  If these are the same for all
used traits, both registries have the same traits, parents and interfaces, each step of a walk gives
the same methods in both, and so do whole walks.

## Main definitions

* `Registry.withUses`, `Registry.revised`: a registry with other uses of traits, and its
  declarations.
* `rulesFor`: the rules that are for one trait.
* `SameEffect`: other uses of traits change nothing in one step.
* `SameMethods`: they do not change the methods that are visible.
* `RuleSite`: a place for rules in the uses of traits of a declaration.

## Main statements

* `importMethods_eq_rulesFor`: only the rules for a trait matter to what is taken over from it.
* `SameEffect.importMethods_eq`, `collectFrom_withUses`: what one step keeps, and a whole walk.
* `methods_of_unnamed_rule`: what a rule without the name of a trait means.
-/

namespace PhpHandbook

open Declaration (Adaptation Comment Name TraitUse Visibility)
open Registry (ClassEntry classKey lower sameText)
open Source (Span)

/-! ### Registries with other uses of traits -/

/-- The declaration with other uses of traits. -/
def Registry.ClassEntry.withUses (e : ClassEntry) (uses : List TraitUse) : ClassEntry :=
  { e with decl := { e.decl with traitUses := uses } }

variable {reg : Registry} {uses : ClassEntry → List TraitUse}

namespace Registry

/-- **The registry with other uses of traits**, given for each declaration. -/
def withUses (reg : Registry) (uses : ClassEntry → List TraitUse) : Registry where
  entries := reg.entries.map fun e => e.withUses (uses e)
  distinct := by
    rw [List.map_map]
    exact reg.distinct
  formed := by
    intro e he
    obtain ⟨d, hd, rfl⟩ := List.mem_map.1 he
    have hformed := reg.formed d hd
    exact ⟨hformed.name_eq, hformed.space_eq, hformed.named, hformed.imports⟩

/-- A declaration in the registry with other uses of traits. -/
def revised (uses : ClassEntry → List TraitUse) (e : reg.Entry) : (reg.withUses uses).Entry :=
  ⟨e.1.withUses (uses e.1), List.mem_map_of_mem e.2⟩

theorem find?_eq_some_iff {name : String} {e : reg.Entry} :
    reg.find? name = some e ↔ e.1.key = classKey name := by
  refine ⟨key_of_find?, fun hkey => ?_⟩
  rw [find?]
  cases hfind : reg.findKey? (classKey name) with
  | none => exact absurd (hkey ▸ List.mem_map_of_mem e.2) (not_mem_of_findKey? hfind)
  | some e' => rw [entry_eq_of_key ((key_of_findKey? hfind).trans hkey.symm)]

/-- Every declaration is found as before. -/
theorem find?_withUses (name : String) :
    (reg.withUses uses).find? name = (reg.find? name).map (revised uses) := by
  refine Option.ext fun d => ?_
  obtain ⟨e, rfl⟩ : ∃ e, revised uses e = d := by
    obtain ⟨e, he, hd⟩ := List.mem_map.1 d.2
    exact ⟨⟨e, he⟩, Subtype.ext hd⟩
  have hkey (x : reg.Entry) : (revised uses x).1.key = x.1.key := rfl
  rw [find?_eq_some_iff, Option.map_eq_some_iff, hkey]
  constructor
  · exact fun h => ⟨e, find?_eq_some_iff.2 h, rfl⟩
  · rintro ⟨x, hx, hrevised⟩
    rw [← hkey e, ← hrevised, hkey, find?_eq_some_iff.1 hx]

end Registry

namespace Hierarchy

open Registry (revised)

theorem parent?_withUses (e : reg.Entry) :
    parent? (reg.withUses uses) (revised uses e).1 = (parent? reg e.1).map (revised uses) := by
  have hname : parentName? (revised uses e).1 = parentName? e.1 := rfl
  unfold parent?
  rw [hname]
  cases parentName? e.1 with
  | none => rfl
  | some name =>
    simp only [Registry.find?_withUses, Option.filter_map]
    rfl

theorem filterMap_find?_withUses (names : List String) :
    names.filterMap (reg.withUses uses).find?
      = (names.filterMap reg.find?).map (revised uses) := by
  rw [List.map_filterMap]
  exact List.filterMap_congr fun name _ => Registry.find?_withUses name

theorem interfaceEntries_withUses (e : reg.Entry) :
    interfaceEntries (reg.withUses uses) (revised uses e).1
      = (interfaceEntries reg e.1).map (revised uses) :=
  filterMap_find?_withUses _

theorem traits_withUses {e : reg.Entry}
    (h : (uses e.1).flatMap (·.traits) = e.1.decl.traitUses.flatMap (·.traits)) :
    traits (reg.withUses uses) (revised uses e).1 = (traits reg e.1).map (revised uses) := by
  have hnames : traitNames (revised uses e).1 = traitNames e.1 := by
    have hresolve (us : List TraitUse) :
        us.flatMap (fun use => use.traits.map e.1.scope.resolve)
          = (us.flatMap (·.traits)).map e.1.scope.resolve := (List.map_flatMap ..).symm
    show keepFirst lower ((uses e.1).flatMap fun use => use.traits.map e.1.scope.resolve) = _
    rw [hresolve, h, ← hresolve, traitNames]
  rw [traits, hnames, filterMap_find?_withUses, List.filter_map, traits]
  rfl

/-! ### The rules for one trait -/

/-- How a class with the given traits reads a rule. -/
def readRule (reg : Registry) (e : ClassEntry) : Adaptation → Option TraitAlias
  | .rename traitName method visibility newName =>
    let owner := match traitName with
      | some name => some (e.scope.resolve name)
      | none => ((traits reg e).find? fun t => declares t.1 method).map (·.1.name)
    some ⟨newName.getD method, owner, method, visibility⟩
  | .precedence .. => none

/-- A rule with the name of the trait that it is for. -/
def TraitAlias.named (traitName : String) (a : TraitAlias) : TraitAlias :=
  { a with traitName := some traitName }

@[simp]
theorem TraitAlias.isFor_named (traitName : String) (a : TraitAlias) :
    (a.named traitName).isFor traitName = true := by
  simp [isFor, named, sameText]

/-- **The rules that are for one trait**, written with its name. -/
def rulesFor (reg : Registry) (e : ClassEntry) (rules : List Adaptation) (traitName : String) :
    List TraitAlias :=
  ((rules.filterMap (readRule reg e)).filter (·.isFor traitName)).map (·.named traitName)

theorem rulesFor_append (e : ClassEntry) (rules rules' : List Adaptation) (traitName : String) :
    rulesFor reg e (rules ++ rules') traitName
      = rulesFor reg e rules traitName ++ rulesFor reg e rules' traitName := by
  simp only [rulesFor, List.filterMap_append, List.filter_append, List.map_append]

theorem takeOver_named (e : ClassEntry) (aliases : List TraitAlias) (traitName : String)
    (m : VisibleMethod reg) :
    takeOver e ((aliases.filter (·.isFor traitName)).map (·.named traitName)) traitName m
      = takeOver e aliases traitName m := by
  have hfind : ((aliases.filter (·.isFor traitName)).map (·.named traitName)).find? (fun a =>
        sameText a.newName m.name && sameText a.method m.name && a.isFor traitName)
      = (aliases.find? fun a =>
        sameText a.newName m.name && sameText a.method m.name && a.isFor traitName).map
          (·.named traitName) := by
    rw [List.find?_map, List.find?_filter]
    congr 2
    funext a
    rw [Bool.decide_and, Bool.decide_eq_true, Bool.decide_eq_true]
    show (a.isFor traitName && (sameText a.newName m.name && sameText a.method m.name
      && (a.named traitName).isFor traitName)) = _
    rw [TraitAlias.isFor_named, Bool.and_true, Bool.and_comm]
  rw [takeOver, takeOver, hfind]
  cases aliases.find? fun a =>
    sameText a.newName m.name && sameText a.method m.name && a.isFor traitName <;> rfl

theorem filterMap_takeOverAs?_named (e : ClassEntry) (aliases : List TraitAlias)
    (traitName : String) (provided : List (VisibleMethod reg)) :
    ((aliases.filter (·.isFor traitName)).map (·.named traitName)).filterMap
        (takeOverAs? e traitName provided)
      = aliases.filterMap (takeOverAs? e traitName provided) := by
  rw [List.filterMap_map, List.filterMap_filter]
  refine List.filterMap_congr fun a _ => ?_
  by_cases hfor : a.isFor traitName = true
  · rw [if_pos hfor, Function.comp_apply, takeOverAs?, TraitAlias.isFor_named, takeOverAs?, hfor]
    rfl
  · rw [if_neg hfor, takeOverAs?, if_neg]
    rw [Bool.not_eq_true] at hfor
    rw [hfor, Bool.false_and, Bool.false_eq_true]
    exact not_false

/-- **What is taken over from a trait** is a matter of the rules for that trait. -/
theorem importMethods_eq_rulesFor (e : ClassEntry) (traitName : String)
    (provided : List (VisibleMethod reg)) :
    importMethods e (traitAliases reg e) traitName provided
      = importMethods e (rulesFor reg e (e.decl.traitUses.flatMap (·.adaptations)) traitName)
          traitName provided := by
  have htake : (takeOver e (traitAliases reg e) traitName : VisibleMethod reg → VisibleMethod reg)
      = takeOver e (rulesFor reg e (e.decl.traitUses.flatMap (·.adaptations)) traitName)
          traitName :=
    funext fun m => (takeOver_named e (traitAliases reg e) traitName m).symm
  rw [importMethods, htake, ← filterMap_takeOverAs?_named, importMethods]
  rfl

/-- Whether a rule of a declaration excludes a method of a trait. -/
def excludes (e : ClassEntry) (traitName method : String) : Adaptation → Bool
  | .precedence _ m names =>
    sameText m method && names.any fun n => sameText (e.scope.resolve n) traitName
  | .rename .. => false

theorem excludesTraitMethod_eq (e : ClassEntry) (traitName method : String) :
    excludesTraitMethod e traitName method
      = (e.decl.traitUses.flatMap (·.adaptations)).any (excludes e traitName method) :=
  rfl

/-! ### Uses with the same effect -/

/-- **The other uses of traits have the same effect** on a declaration: they name the same traits,
exclude the same methods, and have the same rules for each used trait. -/
structure SameEffect (reg : Registry) (uses : ClassEntry → List TraitUse)
    (e : ClassEntry) : Prop where
  /-- The same traits are named. -/
  named : (uses e).flatMap (·.traits) = e.decl.traitUses.flatMap (·.traits)
  /-- The same methods are excluded. -/
  excluded : ∀ traitName method, excludesTraitMethod (e.withUses (uses e)) traitName method
    = excludesTraitMethod e traitName method
  /-- The rules for a used trait are the same. -/
  rules : ∀ t ∈ traits reg e, rulesFor reg e ((uses e).flatMap (·.adaptations)) t.1.name
    = rulesFor reg e (e.decl.traitUses.flatMap (·.adaptations)) t.1.name

/-- A visible method in the registry with other uses of traits. -/
def VisibleMethod.revised (uses : ClassEntry → List TraitUse) (m : VisibleMethod reg) :
    VisibleMethod (reg.withUses uses) :=
  ⟨m.name, m.method, m.visibility, m.declaringClass, Registry.revised uses m.source⟩

namespace SameEffect

variable {e : reg.Entry}

theorem readRule_eq (h : SameEffect reg uses e.1) :
    readRule (reg.withUses uses) (revised uses e).1 = readRule reg e.1 := by
  funext rule
  cases rule with
  | precedence traitName method insteadOf => rfl
  | rename traitName method visibility newName =>
    cases traitName with
    | some traitName => rfl
    | none =>
      simp only [readRule, traits_withUses h.named, List.find?_map, Option.map_map]
      rfl

/-- Of a trait, given the same methods, the same methods are taken over. -/
theorem importMethods_eq (h : SameEffect reg uses e.1) {t : reg.Entry} (ht : t ∈ traits reg e.1)
    (provided : List (VisibleMethod reg)) :
    importMethods (revised uses e).1 (traitAliases (reg.withUses uses) (revised uses e).1) t.1.name
        (provided.map (·.revised uses))
      = (importMethods e.1 (traitAliases reg e.1) t.1.name provided).map (·.revised uses) := by
  have hrules : rulesFor (reg.withUses uses) (revised uses e).1
        ((revised uses e).1.decl.traitUses.flatMap (·.adaptations)) t.1.name
      = rulesFor reg e.1 (e.1.decl.traitUses.flatMap (·.adaptations)) t.1.name := by
    rw [rulesFor, h.readRule_eq]
    exact h.rules t ht
  rw [importMethods_eq_rulesFor, importMethods_eq_rulesFor, hrules, importMethods, importMethods,
    List.map_append, List.map_map, List.map_filterMap, List.filter_map, List.map_map]
  have hexcluded : (fun m : VisibleMethod (reg.withUses uses) =>
        !excludesTraitMethod (revised uses e).1 t.1.name m.name) ∘ (·.revised uses)
      = fun m : VisibleMethod reg => !excludesTraitMethod e.1 t.1.name m.name :=
    funext fun m => congrArg not (h.excluded t.1.name m.name)
  rw [hexcluded]
  refine congrArg _ (List.filterMap_congr fun a _ => ?_)
  rw [takeOverAs?, takeOverAs?, List.find?_map]
  split
  · rw [Option.map_map, Option.map_map]
    rfl
  · rfl

end SameEffect

/-! ### Whole walks -/

theorem keepFirst_map {α β : Type} {key : α → String} {key' : β → String} {f : α → β}
    (h : ∀ a, key' (f a) = key a) (items : List α) (seen : List String) :
    keepFirstFrom key' seen (items.map f) = (keepFirstFrom key seen items).map f := by
  induction items generalizing seen with
  | nil => rfl
  | cons a items ih =>
    rw [List.map_cons, keepFirstFrom, keepFirstFrom, h, ih, ih]
    split <;> rfl

/-- What the methods are made of stays the same, if the methods of other declarations do. -/
theorem sources_withUses {e : reg.Entry} (h : SameEffect reg uses e.1)
    {members : reg.Entry → List (VisibleMethod reg)}
    {members' : (reg.withUses uses).Entry → List (VisibleMethod (reg.withUses uses))}
    (hmembers : ∀ d, members' (revised uses d) = (members d).map (·.revised uses)) :
    (methodRules (reg.withUses uses)).sources (revised uses e) members'
      = ((methodRules reg).sources e members).map (List.map (·.revised uses)) := by
  have hown : ownMethods (revised uses e) = (ownMethods e).map (·.revised uses) := by
    rw [ownMethods, ownMethods, List.map_map]
    rfl
  have htraits : (traits (reg.withUses uses) (revised uses e).1).map
        (fun t => (methodRules (reg.withUses uses)).fromTrait (revised uses e) t (members' t))
      = ((traits reg e.1).map fun t => (methodRules reg).fromTrait e t (members t)).map
          (List.map (·.revised uses)) := by
    rw [traits_withUses h.named, List.map_map, List.map_map]
    refine List.map_congr_left fun t ht => ?_
    rw [Function.comp_apply, hmembers]
    exact h.importMethods_eq ht (members t)
  have hparent : (parent? (reg.withUses uses) (revised uses e).1).toList.map
        (fun p => (members' p).filter (methodRules (reg.withUses uses)).isInherited)
      = ((parent? reg e.1).toList.map
          fun p => (members p).filter (methodRules reg).isInherited).map
          (List.map (·.revised uses)) := by
    rw [parent?_withUses]
    cases parent? reg e.1 with
    | none => rfl
    | some p =>
      show [(members' (revised uses p)).filter _] = _
      rw [hmembers, List.filter_map]
      rfl
  have hinterfaces : ((methodRules (reg.withUses uses)).interfaces (revised uses e)).map members'
      = (((methodRules reg).interfaces e).map members).map (List.map (·.revised uses)) := by
    show (interfaceEntries _ (revised uses e).1).map members' = _
    rw [interfaceEntries_withUses, List.map_map, List.map_map]
    exact List.map_congr_left fun i _ => hmembers i
  rw [MemberRules.sources, MemberRules.sources, htraits, hparent, hinterfaces, List.map_append,
    List.map_append, List.map_cons]
  exact congrArg (fun own => own :: _ ++ _ ++ _) hown

/-- **The methods stay the same** where other uses of traits have the same effect, whatever is on
the path. -/
theorem collectFrom_withUses (h : ∀ e : reg.Entry, SameEffect reg uses e.1) (path : List String)
    (e : reg.Entry) :
    collectFrom (methodRules (reg.withUses uses)) path (revised uses e)
      = (collectFrom (methodRules reg) path e).map (·.revised uses) := by
  have hkey : (revised uses e).1.key = e.1.key := rfl
  by_cases hpath : e.1.key ∈ path
  · rw [collectFrom, dif_pos (hkey ▸ hpath), collectFrom, dif_pos hpath, List.map_nil]
  · have ih (d : reg.Entry) := collectFrom_withUses h (e.1.key :: path) d
    rw [collectFrom_of_not_mem _ (hkey ▸ hpath), collectFrom_of_not_mem _ hpath, hkey,
      ← keepFirst_flatten, ← keepFirst_flatten, keepFirst, keepFirst]
    rw [sources_withUses (h e) ih, ← List.map_flatten]
    exact keepFirst_map (fun _ => rfl) _ _
termination_by reg.unvisited path
decreasing_by exact Registry.unvisited_cons_lt e.2 hpath

/-- **The methods visible on every declaration** stay the same with other uses of traits. -/
def SameMethods (reg : Registry) (uses : ClassEntry → List TraitUse) : Prop :=
  ∀ e : reg.Entry,
    methods (reg.withUses uses) (revised uses e) = (methods reg e).map (·.revised uses)

theorem sameMethods_of_sameEffect (h : ∀ e : reg.Entry, SameEffect reg uses e.1) :
    SameMethods reg uses :=
  collectFrom_withUses h []

/-! ### A rule written in another way -/

/-- **A place for rules** in the uses of traits of a declaration. -/
structure RuleSite where
  /-- The uses in front of the one that the place is in. -/
  front : List TraitUse
  /-- The traits of that use. -/
  traits : List Name
  /-- The rules in front of the place. -/
  frontRules : List Adaptation
  /-- The rules behind it. -/
  backRules : List Adaptation
  /-- The comments in front of that use. -/
  comments : List Comment
  /-- Where that use is. -/
  span : Span
  /-- The uses behind it. -/
  back : List TraitUse

namespace RuleSite

variable (site : RuleSite)

/-- The uses of traits with some rules in the place. -/
def fill (rules : List Adaptation) : List TraitUse :=
  site.front ++
    ⟨site.traits, site.frontRules ++ rules ++ site.backRules, site.comments,
      site.span⟩ :: site.back

/-- The rules do not name traits to use. -/
theorem traits_fill (rules rules' : List Adaptation) :
    (site.fill rules).flatMap (·.traits) = (site.fill rules').flatMap (·.traits) := by
  simp only [fill, List.flatMap_append, List.flatMap_cons]

theorem adaptations_fill (rules : List Adaptation) :
    (site.fill rules).flatMap (·.adaptations)
      = site.front.flatMap (·.adaptations) ++ site.frontRules ++ rules
          ++ (site.backRules ++ site.back.flatMap (·.adaptations)) := by
  simp only [fill, List.flatMap_append, List.flatMap_cons, List.append_assoc]

end RuleSite

/-- Other uses of traits of one declaration. -/
def usesWith (c : reg.Entry) (changed : List TraitUse) (e : ClassEntry) : List TraitUse :=
  if e.key = c.1.key then changed else e.decl.traitUses

/-- Rules that give new names and exclude nothing. -/
def OnlyRename (rules : List Adaptation) : Prop :=
  ∀ rule ∈ rules, ∃ traitName method visibility newName,
    rule = .rename traitName method visibility newName

/-- **Rules in one place have the same effect** as other ones if they exclude nothing and are the
same for each used trait. -/
theorem sameEffect_fill {c : reg.Entry} {site : RuleSite} {rules rules' : List Adaptation}
    (huses : c.1.decl.traitUses = site.fill rules) (hrename : OnlyRename rules)
    (hrename' : OnlyRename rules')
    (hrules : ∀ t ∈ traits reg c.1,
      rulesFor reg c.1 rules' t.1.name = rulesFor reg c.1 rules t.1.name) (e : reg.Entry) :
    SameEffect reg (usesWith c (site.fill rules')) e.1 := by
  by_cases hkey : e.1.key = c.1.key
  · obtain rfl : e = c := Registry.entry_eq_of_key hkey
    have hchanged : usesWith e (site.fill rules') e.1 = site.fill rules' := if_pos rfl
    refine ⟨?_, fun traitName method => ?_, fun t ht => ?_⟩
    · rw [hchanged, huses, site.traits_fill]
    · have hquiet {rules : List Adaptation} (h : OnlyRename rules) :
          rules.any (excludes e.1 traitName method) = false := by
        rw [List.any_eq_false]
        intro rule hrule
        obtain ⟨_, _, _, _, rfl⟩ := h rule hrule
        exact Bool.false_ne_true
      rw [hchanged, excludesTraitMethod_eq, excludesTraitMethod_eq, huses]
      show ((site.fill rules').flatMap (·.adaptations)).any (excludes e.1 traitName method) = _
      simp only [site.adaptations_fill, List.any_append, hquiet hrename, hquiet hrename']
    · rw [hchanged, huses]
      simp only [site.adaptations_fill, rulesFor_append, hrules t ht]
  · have hsame : usesWith c (site.fill rules') e.1 = e.1.decl.traitUses := if_neg hkey
    refine ⟨by rw [hsame], fun _ _ => by rw [hsame]; rfl, fun _ _ => by rw [hsame]⟩

/-! ### Rules that name no trait -/

theorem rulesFor_singleton {e : ClassEntry} {rule : Adaptation} {a : TraitAlias}
    (h : readRule reg e rule = some a) (traitName : String) :
    rulesFor reg e [rule] traitName = if a.isFor traitName then [a.named traitName] else [] := by
  rw [rulesFor, List.filterMap_cons_some h, List.filterMap_nil, List.filter_cons, List.filter_nil]
  split <;> rfl

/-- A method that a declaration declares is visible on it. -/
theorem hasMethod_of_declares {e : reg.Entry} {method : String} (h : declares e.1 method = true) :
    hasMethod reg e method = true := by
  obtain ⟨d, hd, hname⟩ := List.any_eq_true.1 h
  have hown : (⟨d.name.name, d, d.modifiers.effective, e.1.name, e⟩ : VisibleMethod reg)
      ∈ ownMethods e := List.mem_map_of_mem hd
  have hsource : ownMethods e
      ∈ (methodRules reg).sources e (collectFrom (methodRules reg) [e.1.key]) :=
    List.mem_append_left _ (List.mem_append_left _ List.mem_cons_self)
  obtain ⟨m, hm, hkey⟩ := exists_mem_leftUnion (methodRules reg).key hsource hown
  refine List.any_eq_true.2 ⟨m, ?_, ?_⟩
  · rw [methods, collectFrom_of_not_mem _ List.not_mem_nil]
    exact hm
  · have hlower : lower m.name = lower d.name.name := hkey
    rw [sameText, hlower]
    exact hname

section Unnamed

variable {c t : reg.Entry} {method : String} (visibility : Option Visibility)
  (newName : Option String) (ht : t ∈ traits reg c.1)
  (honly : ∀ u ∈ traits reg c.1, hasMethod reg u method = true ↔ u = t)

include honly

/-- A rule that names no trait is void if the one trait with the method does not declare it. -/
theorem rulesFor_unnamed_of_not_declares (hdeclares : declares t.1 method = false)
    (traitName : String) :
    rulesFor reg c.1 [.rename none method visibility newName] traitName = [] := by
  have hnone : (traits reg c.1).find? (fun u => declares u.1 method) = none := by
    refine List.find?_eq_none.2 fun u hu hdeclared => ?_
    obtain rfl : u = t := (honly u hu).1 (hasMethod_of_declares hdeclared)
    rw [hdeclares] at hdeclared
    cases hdeclared
  have hread : readRule reg c.1 (.rename none method visibility newName)
      = some ⟨newName.getD method, none, method, visibility⟩ := by
    rw [readRule, hnone]
    rfl
  rw [rulesFor_singleton hread]
  rfl

include ht

/-- A rule that names no trait is for the one with the method if that one declares it. -/
theorem rulesFor_unnamed_of_declares (hdeclares : declares t.1 method = true) {name : Name}
    (hname : sameText (c.1.scope.resolve name) t.1.name = true) (traitName : String) :
    rulesFor reg c.1 [.rename none method visibility newName] traitName
      = rulesFor reg c.1 [.rename (some name) method visibility newName] traitName := by
  have hsome : (traits reg c.1).find? (fun u => declares u.1 method) = some t := by
    cases hfind : (traits reg c.1).find? (fun u => declares u.1 method) with
    | none => exact absurd hdeclares (List.find?_eq_none.1 hfind t ht)
    | some u =>
      have hdeclared := List.find?_some hfind
      have hu : hasMethod reg u method = true := hasMethod_of_declares hdeclared
      rw [(honly u (List.mem_of_find?_eq_some hfind)).1 hu]
  have hread : readRule reg c.1 (.rename none method visibility newName)
      = some ⟨newName.getD method, some t.1.name, method, visibility⟩ := by
    rw [readRule, hsome]
    rfl
  have hreadNamed : readRule reg c.1 (.rename (some name) method visibility newName)
      = some ⟨newName.getD method, some (c.1.scope.resolve name), method, visibility⟩ := rfl
  have hlower : lower (c.1.scope.resolve name) = lower t.1.name := beq_iff_eq.1 hname
  rw [rulesFor_singleton hread, rulesFor_singleton hreadNamed]
  simp only [TraitAlias.isFor, Option.any_some, sameText, hlower]
  rfl

end Unnamed

/-- **A rule that names no trait** is for the trait that declares the method.  If exactly one used
trait has the method, and declares it itself, then the rule may as well name that trait.  If that
trait has the method from another trait, the rule may as well be left out.  In both cases the
methods visible on every declaration stay the same. -/
theorem methods_of_unnamed_rule (c t : reg.Entry) (site : RuleSite) (method : String)
    (visibility : Option Visibility) (newName : Option String) (name : Name)
    (huses : c.1.decl.traitUses = site.fill [.rename none method visibility newName])
    (ht : t ∈ traits reg c.1)
    (honly : ∀ u ∈ traits reg c.1, hasMethod reg u method = true ↔ u = t)
    (hname : sameText (c.1.scope.resolve name) t.1.name = true) :
    (declares t.1 method = true → SameMethods reg
        (usesWith c (site.fill [.rename (some name) method visibility newName]))) ∧
      (declares t.1 method = false → SameMethods reg (usesWith c (site.fill []))) := by
  have hrename (traitName : Option Name) :
      OnlyRename [.rename traitName method visibility newName] := by
    rintro rule hrule
    exact ⟨_, _, _, _, List.mem_singleton.1 hrule⟩
  constructor
  · intro hdeclares
    refine sameMethods_of_sameEffect (sameEffect_fill huses (hrename _) (hrename _) fun u _ => ?_)
    exact (rulesFor_unnamed_of_declares _ _ ht honly hdeclares hname _).symm
  · intro hdeclares
    refine sameMethods_of_sameEffect (sameEffect_fill huses (hrename _) nofun fun u _ => ?_)
    exact (rulesFor_unnamed_of_not_declares _ _ honly hdeclares _).symm

/-- The only place for rules in a declaration that uses one trait. -/
def placeFor (traitName : String) : RuleSite :=
  ⟨[], [Name.ofText traitName ⟨0, 0⟩], [], [], [], ⟨0, 0⟩, []⟩

/-- The rule to draw as an outline. -/
def outlineRule (traitName : Option Name) : Adaptation :=
  .rename traitName "draw" none (some "outline")

/-- A trait that has a method from another trait, and a class that takes it over under a second
name. -/
def studio : Registry where
  entries := [
    sketch .trait "Ink" ["draw"] [] [] [],
    sketch .trait "Pen" [] [] [] ["Ink"],
    (sketch .plainClass "Brush" [] [] [] []).withUses ((placeFor "Pen").fill [outlineRule none])]
  distinct := by decide +kernel
  formed := by decide +kernel

/-- The used trait. -/
def pen : studio.Entry :=
  ⟨_, List.mem_cons_of_mem _ List.mem_cons_self⟩

/-- The class that uses it. -/
def studioBrush : studio.Entry :=
  ⟨_, List.mem_cons_of_mem _ (List.mem_cons_of_mem _ List.mem_cons_self)⟩

/-- The trait of the workshop. -/
def paint : workshop.Entry :=
  ⟨_, List.mem_cons_self⟩

/-- The class that uses it. -/
def brush : workshop.Entry :=
  ⟨_, List.mem_cons_of_mem _ List.mem_cons_self⟩

/-- The trait that a declaration uses, where it is the only one that it names. -/
theorem traits_of_traitNames {e : ClassEntry} {t : reg.Entry} (hnames : traitNames e = [t.1.name])
    (htrait : t.1.kind = .trait) : traits reg e = [t] := by
  rw [traits, hnames, List.filterMap_cons_some (Registry.find?_name t), List.filterMap_nil]
  simp [htrait]

theorem traits_brush : traits workshop brush.1 = [paint] :=
  traits_of_traitNames (by decide +kernel) rfl

theorem traits_studioBrush : traits studio studioBrush.1 = [pen] :=
  traits_of_traitNames (by decide +kernel) rfl

/-- In the workshop the rule may as well name the trait, and in the studio it may as well be left
out. -/
theorem methods_of_unnamed_outline :
    SameMethods workshop (usesWith brush
        ((placeFor "Paint").fill [outlineRule (some (Name.ofText "Paint" ⟨0, 0⟩))])) ∧
      SameMethods studio (usesWith studioBrush ((placeFor "Pen").fill [])) := by
  have honly {reg : Registry} {e t : reg.Entry} (htraits : traits reg e.1 = [t])
      (hmethod : hasMethod reg t "draw" = true) :
      ∀ u ∈ traits reg e.1, hasMethod reg u "draw" = true ↔ u = t := by
    intro u hu
    rw [htraits, List.mem_singleton] at hu
    simp [hu, hmethod]
  have hworkshop := methods_of_unnamed_rule brush paint (placeFor "Paint") "draw" none
    (some "outline") (Name.ofText "Paint" ⟨0, 0⟩) rfl (by simp [traits_brush])
    (honly traits_brush (by decide +kernel)) (by decide +kernel)
  have hstudio := methods_of_unnamed_rule studioBrush pen (placeFor "Pen") "draw" none
    (some "outline") (Name.ofText "Pen" ⟨0, 0⟩) rfl (by simp [traits_studioBrush])
    (honly traits_studioBrush (by decide +kernel)) (by decide +kernel)
  exact ⟨hworkshop.1 (by decide +kernel), hstudio.2 (by decide +kernel)⟩

/-- In the studio there is no outline, although the only used trait has the method; with a rule that
names the trait there is one. -/
theorem unnamed_outline_is_missing :
    (∀ t ∈ traits studio studioBrush.1, hasMethod studio t "draw" = true ↔ t = pen) ∧
      (methods studio studioBrush).map (·.name) = ["draw"] ∧
      (methods (studio.withUses (usesWith studioBrush
          ((placeFor "Pen").fill [outlineRule (some (Name.ofText "Pen" ⟨0, 0⟩))])))
        (revised _ studioBrush)).map (·.name) = ["draw", "outline"] := by
  refine ⟨fun t ht => ?_, by decide +kernel, by decide +kernel⟩
  have hmethod : hasMethod studio pen "draw" = true := by decide +kernel
  rw [traits_studioBrush, List.mem_singleton] at ht
  simp [ht, hmethod]

end Hierarchy

end PhpHandbook
