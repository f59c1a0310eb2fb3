import PhpHandbook.Registry.Basic

/-!
# The hierarchy of classes

Parents, interfaces and traits of a registered declaration, and the rules under which the methods
of traits are taken over.  A program may name what is not registered, and declarations may form
cycles; every question about the hierarchy has an answer all the same.

This is the reflection on one class: each question about its parent, interfaces and traits that is
answered without a walk over its members.

## Main definitions

* `parent?`, `ancestors`: the registered parent, and the chain of parents up to a repetition.
* `interfaceNames`: all interfaces, the inherited ones included, each once.
* `traits`, `traitAliases`, `excludesTraitMethod`: used traits and their adaptations.
-/

namespace PhpHandbook.Hierarchy

open Declaration (ClassKind Visibility)
open Registry (ClassEntry Entry classKey lower sameText unrooted)

variable (reg : Registry)

/-! ### Parents -/

/-- The full name of the parent of a class. -/
def parentName? (e : ClassEntry) : Option String :=
  if e.kind = .plainClass then e.decl.parents.head?.map e.scope.resolve else none

/-- The registered parent of a class; a class is not its own parent. -/
def parent? (e : ClassEntry) : Option reg.Entry :=
  match parentName? e with
  | none => none
  | some name => (reg.find? name).filter fun p => p.1.key != e.key

/-- The parents of a declaration that lie off the path, nearest first, up to a repetition. -/
def ancestorsFrom (path : List String) (e : ClassEntry) : List reg.Entry :=
  match parent? reg e with
  | none => []
  | some p => if p.1.key ∈ path then [] else p :: ancestorsFrom (p.1.key :: path) p.1
termination_by reg.unvisited path
decreasing_by exact Registry.unvisited_cons_lt p.2 ‹_›

/-- **The ancestors** of a declaration, nearest first. -/
def ancestors (e : ClassEntry) : List reg.Entry :=
  ancestorsFrom reg [e.key] e

/-! ### Interfaces -/

/-- The full names of the interfaces that a declaration names: those a class or enum implements,
or those an interface extends. -/
def declaredInterfaces (e : ClassEntry) : List String :=
  match e.kind with
  | .plainClass | .enum => e.decl.implements.map e.scope.resolve
  | .interface => e.decl.parents.map e.scope.resolve
  | .trait => []

/-- The interfaces of a declaration itself: the declared ones, and those that every enum has. -/
def directInterfaces (e : ClassEntry) : List String :=
  declaredInterfaces e ++
    if e.kind = .enum then
      "UnitEnum" :: (if e.decl.backingType.isSome then ["BackedEnum"] else [])
    else []

/-- The interfaces that a declaration has without following interfaces further: its own, and
those that its ancestors declare. -/
def nearInterfaces (e : ClassEntry) : List String :=
  directInterfaces e ++ (ancestors reg e).flatMap fun a => declaredInterfaces a.1

/-- Follows interfaces depth first: `found` are those met so far, `todo` those to look at next.
An interface that is met again is passed over. -/
def closeInterfaces (found todo : List String) : List String :=
  match todo with
  | [] => found
  | name :: rest =>
    if h : classKey name ∈ found.map classKey then closeInterfaces found rest
    else
      match hx : reg.find? name with
      | none =>
        have := reg.unvisited_append_le (found.map classKey) (classKey name)
        closeInterfaces (found ++ [name]) rest
      | some x =>
        have := Registry.unvisited_append_lt hx h
        closeInterfaces (found ++ [name]) (nearInterfaces reg x.1 ++ rest)
termination_by (reg.unvisited (found.map classKey), todo.length)
decreasing_by
  all_goals simp_wf
  · exact Prod.Lex.right _ (by simp)
  · rcases Nat.lt_or_eq_of_le this with hlt | heq
    · exact Prod.Lex.left _ _ hlt
    · rw [heq]
      exact Prod.Lex.right _ (by simp)
  · exact Prod.Lex.left _ _ this

/-- **All interfaces** of a declaration, the inherited ones included. -/
def interfaceNames (e : ClassEntry) : List String :=
  closeInterfaces reg [] (nearInterfaces reg e)

/-- Whether a declaration has an interface. -/
def implementsInterface (e : ClassEntry) (name : String) : Bool :=
  (interfaceNames reg e).any (sameText · (unrooted name))

/-! ### Traits -/

/-- Keeps the first of several items with the same key, where the keys in `seen` are taken. -/
def keepFirstFrom {α : Type} (key : α → String) (seen : List String) : List α → List α
  | [] => []
  | a :: as =>
    if seen.contains (key a) then keepFirstFrom key seen as
    else a :: keepFirstFrom key (key a :: seen) as

/-- **Keeps the first** of several items with the same key. -/
def keepFirst {α : Type} (key : α → String) (items : List α) : List α :=
  keepFirstFrom key [] items

/-- The full names of the used traits, each once. -/
def traitNames (e : ClassEntry) : List String :=
  keepFirst lower (e.decl.traitUses.flatMap fun use => use.traits.map e.scope.resolve)

/-- The used traits that are registered. -/
def traits (e : ClassEntry) : List reg.Entry :=
  ((traitNames e).filterMap reg.find?).filter (·.1.kind == .trait)

/-- A rule that takes over a method of a trait under a name. -/
structure TraitAlias where
  /-- The new name; the old one if only the visibility changes. -/
  newName : String
  /-- The full name of the trait; none if no used trait declares the method. -/
  traitName : Option String
  /-- The name of the method in the trait. -/
  method : String
  /-- The new visibility. -/
  visibility : Option Visibility
deriving Repr

/-- Whether a declaration itself declares a method. -/
def declares (e : ClassEntry) (method : String) : Bool :=
  e.decl.methods.any (sameText ·.name.name method)

/-- **The aliases** of a declaration; one that names no trait is for the first used trait that
declares the method. -/
def traitAliases (e : ClassEntry) : List TraitAlias :=
  (e.decl.traitUses.flatMap (·.adaptations)).filterMap fun
    | .rename traitName method visibility newName =>
      let owner := match traitName with
        | some name => some (e.scope.resolve name)
        | none => ((traits reg e).find? fun t => declares t.1 method).map (·.1.name)
      some ⟨newName.getD method, owner, method, visibility⟩
    | .precedence .. => none

/-- Whether a rule of a declaration excludes a method of a trait. -/
def excludesTraitMethod (e : ClassEntry) (traitName method : String) : Bool :=
  (e.decl.traitUses.flatMap (·.adaptations)).any fun
    | .precedence _ m names =>
      sameText m method && names.any fun n => sameText (e.scope.resolve n) traitName
    | .rename .. => false

end PhpHandbook.Hierarchy
