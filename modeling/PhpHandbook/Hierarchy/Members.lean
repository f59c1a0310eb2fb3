import PhpHandbook.Hierarchy.Basic

/-!
# Members as they are visible on a class

The methods, properties and constants of a declaration together with those it takes over from
traits, parents and interfaces.  Of several members with one name the first counts: own members
come before those of traits, these before inherited ones, and those of interfaces come last.

The three kinds of members follow one scheme and differ in their `MemberRules` only.  A collection
walks the hierarchy with the keys of the declarations on its path and takes nothing from a
declaration that is already there, so a cycle contributes each member once.

This is the reflection on the members of a class, flattened: what a class has of its own and what it
takes over, each member with the declaration that it comes from.

## Main definitions

* `MemberRules`: how members of one kind are told apart, and what is taken over from where.
* `collectFrom`: the members of a declaration that is reached along a path.
* `methods`, `properties`, `constants`: the members visible on a declaration.
-/

namespace PhpHandbook.Hierarchy

open Declaration (Method Property Modifiers TypeHint Comment Visibility)
open Registry (ClassEntry Entry lower sameText)

variable (reg : Registry)

/-- The registered interfaces of a declaration itself. -/
def interfaceEntries (e : ClassEntry) : List reg.Entry :=
  (directInterfaces e).filterMap reg.find?

/-! ### Collecting members -/

/-- **The rules of one kind of member.** -/
structure MemberRules (α : Type) where
  /-- What members are told apart by. -/
  key : α → String
  /-- The members that a declaration itself declares. -/
  own : reg.Entry → List α
  /-- What a declaration takes over from a trait, given the members of that trait. -/
  fromTrait : reg.Entry → reg.Entry → List α → List α
  /-- Whether a member of a parent is taken over. -/
  isInherited : α → Bool
  /-- The interfaces whose members a declaration has. -/
  interfaces : reg.Entry → List reg.Entry

variable {reg} in
/-- **The members of a declaration** that is reached along a path. -/
def collectFrom {α : Type} (rules : MemberRules reg α) (path : List String) (e : reg.Entry) :
    List α :=
  if h : e.1.key ∈ path then []
  else
    let path' := e.1.key :: path
    have := Registry.unvisited_cons_lt e.2 h
    keepFirst rules.key <|
      rules.own e
        ++ (traits reg e.1).flatMap (fun t => rules.fromTrait e t (collectFrom rules path' t))
        ++ (parent? reg e.1).toList.flatMap (fun p =>
            (collectFrom rules path' p).filter rules.isInherited)
        ++ (rules.interfaces e).flatMap (collectFrom rules path')
termination_by reg.unvisited path

/-! ### Methods -/

/-- A method as visible on a class. -/
structure VisibleMethod where
  /-- The name under which it is visible. -/
  name : String
  method : Method
  visibility : Visibility
  /-- The full name of the class that has the method; a method of a trait belongs to the class
  that uses the trait. -/
  declaringClass : String
  /-- The declaration whose source holds the method. -/
  source : reg.Entry

variable {reg}

/-- The methods that a declaration itself declares. -/
def ownMethods (e : reg.Entry) : List (VisibleMethod reg) :=
  e.1.decl.methods.map fun m => ⟨m.name.name, m, m.modifiers.effective, e.1.name, e⟩

/-- Whether an alias is for the given trait. -/
def TraitAlias.isFor (a : TraitAlias) (traitName : String) : Bool :=
  a.traitName.any (sameText · traitName)

/-- A method of a trait as a class takes it over under its own name. -/
def takeOver (e : ClassEntry) (aliases : List TraitAlias) (traitName : String)
    (m : VisibleMethod reg) : VisibleMethod reg :=
  let rule := aliases.find? fun a =>
    sameText a.newName m.name && sameText a.method m.name && a.isFor traitName
  { m with
    visibility := (rule.bind (·.visibility)).getD m.visibility
    declaringClass := e.name }

/-- A method of a trait as a class takes it over under another name, if the trait has it. -/
def takeOverAs? (e : ClassEntry) (traitName : String) (provided : List (VisibleMethod reg))
    (a : TraitAlias) : Option (VisibleMethod reg) :=
  if a.isFor traitName && !sameText a.newName a.method then
    (provided.find? (sameText ·.name a.method)).map fun m =>
      { m with
        name := a.newName
        visibility := a.visibility.getD m.visibility
        declaringClass := e.name }
  else none

/-- The methods that a class takes over from one trait, given the methods of that trait. -/
def importMethods (e : ClassEntry) (aliases : List TraitAlias) (traitName : String)
    (provided : List (VisibleMethod reg)) : List (VisibleMethod reg) :=
  (provided.filter fun m => !excludesTraitMethod e traitName m.name).map
      (takeOver e aliases traitName)
    ++ aliases.filterMap (takeOverAs? e traitName provided)

variable (reg)

/-- The rules of methods, whose names ignore capital and small letters. -/
def methodRules : MemberRules reg (VisibleMethod reg) where
  key m := lower m.name
  own := ownMethods
  fromTrait e t provided := importMethods e.1 (traitAliases reg e.1) t.1.name provided
  isInherited m := m.visibility != .isPrivate
  interfaces e := interfaceEntries reg e.1

/-- **The methods** visible on a declaration. -/
def methods (e : reg.Entry) : List (VisibleMethod reg) :=
  collectFrom (methodRules reg) [] e

/-- Whether a method is visible on a declaration. -/
def hasMethod (e : reg.Entry) (name : String) : Bool :=
  (methods reg e).any (sameText ·.name name)

/-! ### Properties -/

/-- A property as visible on a class. -/
structure VisibleProperty where
  property : Property
  /-- Whether a parameter of the constructor declares it. -/
  isPromoted : Bool
  declaringClass : String
  source : reg.Entry

/-- The constructor that a declaration itself declares. -/
def constructor? (e : ClassEntry) : Option Method :=
  e.decl.methods.find? (·.isConstructor)

variable {reg} in
/-- The properties that a declaration itself declares, those of its constructor last. -/
def ownProperties (e : reg.Entry) : List (VisibleProperty reg) :=
  e.1.decl.properties.map (⟨·, false, e.1.name, e⟩) ++
    ((constructor? e.1).elim [] (·.params)).filterMap fun p =>
      p.promoted.map fun modifiers =>
        ⟨⟨p.name, p.type, none, modifiers, false, p.doc, p.span⟩, true, e.1.name, e⟩

/-- The rules of properties, which interfaces do not have. -/
def propertyRules : MemberRules reg (VisibleProperty reg) where
  key p := p.property.name.name
  own := ownProperties
  fromTrait e _ provided := provided.map ({ · with declaringClass := e.1.name })
  isInherited p := p.property.modifiers.effective != .isPrivate
  interfaces _ := []

/-- **The properties** visible on a declaration. -/
def properties (e : reg.Entry) : List (VisibleProperty reg) :=
  collectFrom (propertyRules reg) [] e

/-! ### Constants -/

/-- A constant or a case of an enum as visible on a class. -/
structure VisibleConstant where
  name : String
  type : Option TypeHint
  /-- The source text of the value. -/
  value : Option String
  modifiers : Modifiers
  isCase : Bool
  doc : Option Comment
  declaringClass : String
  source : reg.Entry

variable {reg} in
/-- The cases and constants that a declaration itself declares. -/
def ownConstants (e : reg.Entry) : List (VisibleConstant reg) :=
  e.1.decl.cases.map (fun c =>
      ⟨c.name.name, none, c.value, { isFinal := true }, true, c.doc, e.1.name, e⟩)
    ++ e.1.decl.constants.map fun c =>
      ⟨c.name.name, c.type, some c.value, c.modifiers, false, c.doc, e.1.name, e⟩

/-- The rules of constants. -/
def constantRules : MemberRules reg (VisibleConstant reg) where
  key c := c.name
  own := ownConstants
  fromTrait e _ provided := provided.map ({ · with declaringClass := e.1.name })
  isInherited c := c.modifiers.effective != .isPrivate
  interfaces e := interfaceEntries reg e.1

/-- **The constants** visible on a declaration. -/
def constants (e : reg.Entry) : List (VisibleConstant reg) :=
  collectFrom (constantRules reg) [] e

end PhpHandbook.Hierarchy
