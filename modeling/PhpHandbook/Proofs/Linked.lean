import Mathlib.Data.List.Basic
import PhpHandbook.Handbook.Inquiry

/-!
# Data that refers to chapters

Chapters are numbered in the order in which they are opened, so the numbers in an answer depend on
what was asked before.  Everything else in an answer must not.  This module says what "everything
else" is: it lists the references in a piece of data, each with the number of a chapter and the
name of its class, and it exchanges their numbers.

Two pieces of data that are equal once all numbers are struck out differ in their numbers only, and
the names that stand beside the numbers then lead from the one numbering to the other.

## Main definitions

* `Linked`: data with references; `Linked.links` lists them and `Linked.relink` renumbers them.
* `erase`: strikes out all numbers.

## Main statements

* `ResolvedType.induction`: induction over a type along the lists of types in it.
* The laws in `Linked`: renumbering changes the numbers and nothing else.
-/

namespace PhpHandbook.Handbook

open DocBlock (Document)
open Hierarchy (Surroundings)

/-! ### References and their numbers -/

/-- **Data with references to chapters.** -/
class Linked (α : Type) where
  /-- The references in order, each with the number of a chapter and the name of its class. -/
  links : α → List (ChapterId × String)
  /-- Gives every reference a new number. -/
  relink : (ChapterId → String → ChapterId) → α → α
  links_relink : ∀ f a, links (relink f a) = (links a).map fun l => (f l.1 l.2, l.2)
  relink_relink : ∀ f g a, relink g (relink f a) = relink (fun id name => g (f id name) name) a
  relink_self : ∀ a, relink (fun id _ => id) a = a
  /-- Only the references count. -/
  relink_congr : ∀ f g a, (∀ l ∈ links a, f l.1 l.2 = g l.1 l.2) → relink f a = relink g a

export Linked (links relink links_relink relink_relink relink_self relink_congr)

/-- The data with all numbers struck out. -/
def erase {α : Type} [Linked α] (a : α) : α :=
  relink (fun _ _ => ⟨0⟩) a

/-- New numbers that depend on names only can be given after the old ones are struck out. -/
theorem relink_erase {α : Type} [Linked α] (number : String → ChapterId) (a : α) :
    relink (fun _ name => number name) (erase a) = relink (fun _ name => number name) a :=
  relink_relink _ _ a

/-- Data without references. -/
class Linkless (α : Type) [Linked α] : Prop where
  links_eq_nil : ∀ a : α, links a = []

theorem Linkless.erase_eq {α : Type} [Linked α] [Linkless α] (a : α) : erase a = a := by
  calc erase a = relink (fun id _ => id) a :=
        relink_congr _ _ a fun l hl => by simp [Linkless.links_eq_nil] at hl
    _ = a := relink_self a

/-! ### Types

A type refers to the chapters of the classes that are linked in it, at any depth. -/

namespace ResolvedType

/-- **Induction over a type** along the lists of types in it. -/
@[elab_as_elim]
theorem induction {P : ResolvedType → Prop} (t : ResolvedType)
    (named : ∀ name generics, (∀ t ∈ generics, P t) → P (.named name generics))
    (linked : ∀ id name generics, (∀ t ∈ generics, P t) → P (.linked id name generics))
    (template : ∀ name, P (.template name))
    (union : ∀ members, (∀ t ∈ members, P t) → P (.union members))
    (intersection : ∀ members, (∀ t ∈ members, P t) → P (.intersection members))
    (callable : ∀ name params returns, P name → (∀ p ∈ params, P p.type) → P returns →
      P (.callable name params returns))
    (conditional : ∀ subject target yes no, P target → P yes → P no →
      P (.conditional subject target yes no)) : P t :=
  @ResolvedType.rec P (fun ts => ∀ t ∈ ts, P t) (fun ps => ∀ p ∈ ps, P p.type)
    (fun p => P p.type)
    named linked template union intersection callable conditional
    (by simp) (fun _ _ ht hts => List.forall_mem_cons.2 ⟨ht, hts⟩)
    (by simp) (fun _ _ hp hps => List.forall_mem_cons.2 ⟨hp, hps⟩)
    (fun _ _ _ ht => ht) t

/-- The reference that a type itself is, if it is one. -/
def link? : ResolvedType → Option (ChapterId × String)
  | .linked id name _ => some (id, name)
  | _ => none

/-- **The references in a type**, at any depth. -/
def references (t : ResolvedType) : List (ChapterId × String) :=
  t.walk.filterMap link?

mutual

/-- **The type with its references renumbered.** -/
def renumber (f : ChapterId → String → ChapterId) : ResolvedType → ResolvedType
  | .named name generics => .named name (renumberAll f generics)
  | .linked id name generics => .linked (f id name) name (renumberAll f generics)
  | .template name => .template name
  | .union members => .union (renumberAll f members)
  | .intersection members => .intersection (renumberAll f members)
  | .callable name params returns =>
    .callable (name.renumber f) (renumberSlots f params) (returns.renumber f)
  | .conditional subject target yes no =>
    .conditional subject (target.renumber f) (yes.renumber f) (no.renumber f)

/-- Several types with their references renumbered. -/
def renumberAll (f : ChapterId → String → ChapterId) : List ResolvedType → List ResolvedType
  | [] => []
  | t :: ts => t.renumber f :: renumberAll f ts

/-- Parameters of a callable with their references renumbered. -/
def renumberSlots (f : ChapterId → String → ChapterId) :
    List (CallableSlot ResolvedType) → List (CallableSlot ResolvedType)
  | [] => []
  | ⟨type, byRef, variadic⟩ :: ps =>
    ⟨type.renumber f, byRef, variadic⟩ :: renumberSlots f ps

end

attribute [local simp] renumber renumberAll renumberSlots walk walkAll walkSlots

theorem renumberAll_eq (f : ChapterId → String → ChapterId) (ts : List ResolvedType) :
    renumberAll f ts = ts.map (renumber f) := by
  induction ts with
  | nil => rfl
  | cons t ts ih => rw [renumberAll, ih, List.map_cons]

theorem renumberSlots_eq (f : ChapterId → String → ChapterId)
    (ps : List (CallableSlot ResolvedType)) :
    renumberSlots f ps = ps.map fun p => { p with type := p.type.renumber f } := by
  induction ps with
  | nil => rfl
  | cons p ps ih => rw [renumberSlots, ih, List.map_cons]

theorem walkAll_eq (ts : List ResolvedType) : walkAll ts = ts.flatMap walk := by
  induction ts with
  | nil => rfl
  | cons t ts ih => rw [walkAll, ih, List.flatMap_cons]

theorem walkSlots_eq (slots : List (CallableSlot ResolvedType)) :
    walkSlots slots = (slots.map (·.type)).flatMap walk := by
  induction slots with
  | nil => rfl
  | cons slot slots ih => rw [walkSlots, ih, List.map_cons, List.flatMap_cons]

/-! The references of each form of type, in terms of those of its parts. -/

section References

variable (id : ChapterId) (name subject : String) (target yes no : ResolvedType)
  (ts : List ResolvedType) (ps : List (CallableSlot ResolvedType))

@[simp] theorem references_named : references (.named name ts) = ts.flatMap references := by
  rw [references, walk, walkAll_eq, List.filterMap_cons_none rfl, List.filterMap_flatMap]
  rfl

@[simp] theorem references_linked :
    references (.linked id name ts) = (id, name) :: ts.flatMap references := by
  have hlink : link? (.linked id name ts) = some (id, name) := rfl
  rw [references, walk, walkAll_eq, List.filterMap_cons_some hlink, List.filterMap_flatMap]
  rfl

@[simp] theorem references_template : references (.template name) = [] :=
  rfl

@[simp] theorem references_union : references (.union ts) = ts.flatMap references := by
  rw [references, walk, walkAll_eq, List.filterMap_cons_none rfl, List.filterMap_flatMap]
  rfl

@[simp] theorem references_intersection :
    references (.intersection ts) = ts.flatMap references := by
  rw [references, walk, walkAll_eq, List.filterMap_cons_none rfl, List.filterMap_flatMap]
  rfl

@[simp] theorem references_callable :
    references (.callable target ps yes)
      = target.references ++ ps.flatMap (·.type.references) ++ yes.references := by
  rw [references, walk, walkSlots_eq, List.filterMap_cons_none rfl, List.filterMap_append,
    List.filterMap_append, List.filterMap_flatMap, List.flatMap_map]
  rfl

@[simp] theorem references_conditional :
    references (.conditional subject target yes no)
      = target.references ++ yes.references ++ no.references := by
  rw [references, walk, List.filterMap_cons_none rfl, List.filterMap_append,
    List.filterMap_append]
  rfl

end References

/-! The laws of renumbering, each by induction over the type. -/

theorem references_renumber (f : ChapterId → String → ChapterId) (t : ResolvedType) :
    (t.renumber f).references = t.references.map fun l => (f l.1 l.2, l.2) := by
  have step {β : Type} (xs : List β) (part : β → ResolvedType)
      (ih : ∀ x ∈ xs, ((part x).renumber f).references
        = (part x).references.map fun l => (f l.1 l.2, l.2)) :
      (xs.flatMap fun x => ((part x).renumber f).references)
        = (xs.flatMap fun x => (part x).references).map fun l => (f l.1 l.2, l.2) := by
    rw [List.map_flatMap]
    exact List.flatMap_congr ih
  induction t using ResolvedType.induction with
  | named name ts ih => simpa [renumberAll_eq, List.flatMap_map] using step ts id ih
  | linked i name ts ih => simpa [renumberAll_eq, List.flatMap_map] using step ts id ih
  | template name => simp
  | union ts ih => simpa [renumberAll_eq, List.flatMap_map] using step ts id ih
  | intersection ts ih => simpa [renumberAll_eq, List.flatMap_map] using step ts id ih
  | callable name ps returns ihn ihp ihr =>
    simp [renumberSlots_eq, List.flatMap_map, ihn, ihr, step ps (·.type) ihp]
  | conditional subject target yes no iht ihy ihn => simp [iht, ihy, ihn]

theorem renumber_renumber (f g : ChapterId → String → ChapterId) (t : ResolvedType) :
    (t.renumber f).renumber g = t.renumber fun id name => g (f id name) name := by
  induction t using ResolvedType.induction with
  | named name ts ih => simpa [renumberAll_eq] using ih
  | linked i name ts ih => simpa [renumberAll_eq] using ih
  | template name => simp
  | union ts ih => simpa [renumberAll_eq] using ih
  | intersection ts ih => simpa [renumberAll_eq] using ih
  | callable name ps returns ihn ihp ihr =>
    simpa [renumberSlots_eq, ihn, ihr] using ihp
  | conditional subject target yes no iht ihy ihn => simp [iht, ihy, ihn]

/-- Only the references in a type are renumbered. -/
theorem renumber_congr (f g : ChapterId → String → ChapterId) (t : ResolvedType)
    (h : ∀ l ∈ t.references, f l.1 l.2 = g l.1 l.2) : t.renumber f = t.renumber g := by
  induction t using ResolvedType.induction with
  | named name ts ih =>
    have hts : ∀ t ∈ ts, t.renumber f = t.renumber g := fun t ht =>
      ih t ht fun l hl => h l (by simpa using ⟨t, ht, hl⟩)
    simpa [renumberAll_eq] using hts
  | linked i name ts ih =>
    have hts : ∀ t ∈ ts, t.renumber f = t.renumber g := fun t ht =>
      ih t ht fun l hl => h l (by simpa using .inr ⟨t, ht, hl⟩)
    simpa [renumberAll_eq, h (i, name) (by simp)] using hts
  | template name => rfl
  | union ts ih =>
    have hts : ∀ t ∈ ts, t.renumber f = t.renumber g := fun t ht =>
      ih t ht fun l hl => h l (by simpa using ⟨t, ht, hl⟩)
    simpa [renumberAll_eq] using hts
  | intersection ts ih =>
    have hts : ∀ t ∈ ts, t.renumber f = t.renumber g := fun t ht =>
      ih t ht fun l hl => h l (by simpa using ⟨t, ht, hl⟩)
    simpa [renumberAll_eq] using hts
  | callable name ps returns ihn ihp ihr =>
    have hps : ∀ p ∈ ps, p.type.renumber f = p.type.renumber g := fun p hp =>
      ihp p hp fun l hl => h l (by simpa using .inr (.inl ⟨p, hp, hl⟩))
    have hn : name.renumber f = name.renumber g := ihn fun l hl => h l (by simp [hl])
    have hr : returns.renumber f = returns.renumber g := ihr fun l hl => h l (by simp [hl])
    simpa [renumberSlots_eq, hn, hr] using hps
  | conditional subject target yes no iht ihy ihn =>
    have ht : target.renumber f = target.renumber g := iht fun l hl => h l (by simp [hl])
    have hy : yes.renumber f = yes.renumber g := ihy fun l hl => h l (by simp [hl])
    have hn : no.renumber f = no.renumber g := ihn fun l hl => h l (by simp [hl])
    simp [ht, hy, hn]

theorem renumber_self (t : ResolvedType) : t.renumber (fun id _ => id) = t := by
  have step {β : Type} {f : β → β} {xs : List β}
      (ih : ∀ x ∈ xs, f x = x) : xs.map f = xs :=
    (List.map_congr_left ih).trans (List.map_id xs)
  induction t using ResolvedType.induction with
  | named name ts ih => simp [renumberAll_eq, step ih]
  | linked i name ts ih => simp [renumberAll_eq, step ih]
  | template name => rfl
  | union ts ih => simp [renumberAll_eq, step ih]
  | intersection ts ih => simp [renumberAll_eq, step ih]
  | callable name ps returns ihn ihp ihr =>
    have hps :
        ∀ p ∈ ps, ({ p with type := p.type.renumber fun id _ => id } : CallableSlot _) = p :=
      fun p hp => by rw [ihp p hp]
    simp [renumberSlots_eq, ihn, ihr, step hps]
  | conditional subject target yes no iht ihy ihn => simp [iht, ihy, ihn]

end ResolvedType

instance : Linked ResolvedType where
  links := ResolvedType.references
  relink := ResolvedType.renumber
  links_relink := ResolvedType.references_renumber
  relink_relink := ResolvedType.renumber_renumber
  relink_self := ResolvedType.renumber_self
  relink_congr := ResolvedType.renumber_congr

/-! ### Containers -/

section Containers

variable {α β ε : Type} [Linked α] [Linked β]

instance : Linked (Option α) where
  links a := a.elim [] links
  relink f a := a.map (relink f)
  links_relink f a := by cases a <;> simp [links_relink]
  relink_relink f g a := by cases a <;> simp [relink_relink]
  relink_self a := by cases a <;> simp [relink_self]
  relink_congr f g a h := by
    cases a with
    | none => rfl
    | some a => exact congrArg some (relink_congr f g a h)

instance : Linked (List α) where
  links as := as.flatMap links
  relink f as := as.map (relink f)
  links_relink f as := by simp [List.flatMap_map, List.map_flatMap, links_relink]
  relink_relink f g as := by simp [relink_relink]
  relink_self as := (List.map_congr_left fun a _ => relink_self a).trans (List.map_id as)
  relink_congr f g as h := List.map_congr_left fun a ha =>
    relink_congr f g a fun l hl => h l (List.mem_flatMap.2 ⟨a, ha, hl⟩)

instance : Linked (α × β) where
  links p := links p.1 ++ links p.2
  relink f p := (relink f p.1, relink f p.2)
  links_relink f p := by simp [links_relink]
  relink_relink f g p := by simp [relink_relink]
  relink_self p := by simp [relink_self]
  relink_congr f g p h := by
    rw [relink_congr f g p.1 fun l hl => h l (List.mem_append_left _ hl),
      relink_congr f g p.2 fun l hl => h l (List.mem_append_right _ hl)]

instance : Linked (Except ε α) where
  links
    | .ok a => links a
    | .error _ => []
  relink f
    | .ok a => .ok (relink f a)
    | .error e => .error e
  links_relink f a := by cases a <;> simp [links_relink]
  relink_relink f g a := by cases a <;> simp [relink_relink]
  relink_self a := by cases a <;> simp [relink_self]
  relink_congr f g a h := by
    cases a with
    | error e => rfl
    | ok a => exact congrArg Except.ok (relink_congr f g a h)

end Containers

/-! ### Data without references -/

/-- The references of data that has none. -/
@[reducible] def Linked.none (α : Type) : Linked α where
  links _ := []
  relink _ a := a
  links_relink _ _ := rfl
  relink_relink _ _ _ := rfl
  relink_self _ := rfl
  relink_congr _ _ _ _ := rfl

instance : Linked String := .none _
instance : Linkless String := ⟨fun _ => rfl⟩
instance : Linked Document := .none _
instance : Linkless Document := ⟨fun _ => rfl⟩
instance : Linked Surroundings := .none _
instance : Linkless Surroundings := ⟨fun _ => rfl⟩
instance : Linked Resolver := .none _
instance : Linkless Resolver := ⟨fun _ => rfl⟩

/-! ### Records

A record has the references of some of its fields, which are read and replaced together. -/

/-- **A record with its linked parts.** -/
class Parts (α : Type) (β : outParam Type) where
  parts : α → β
  withParts : β → α → α
  parts_withParts : ∀ b a, parts (withParts b a) = b := by intros; rfl
  withParts_parts : ∀ a, withParts (parts a) a = a := by intros; rfl
  withParts_withParts : ∀ b c a, withParts b (withParts c a) = withParts b a := by intros; rfl

export Parts (parts withParts)

instance {α β : Type} [Parts α β] [Linked β] : Linked α where
  links a := links (parts a)
  relink f a := withParts (relink f (parts a)) a
  links_relink f a := by rw [Parts.parts_withParts, links_relink]
  relink_relink f g a := by
    rw [Parts.parts_withParts, Parts.withParts_withParts, relink_relink]
  relink_self a := by rw [relink_self, Parts.withParts_parts]
  relink_congr f g a h := by rw [relink_congr f g (parts a) h]

/-- Records that differ in their linked parts only are equal with the numbers struck out if their
parts are. -/
theorem erase_eq_of_parts {α β : Type} [Parts α β] [Linked β] {a₁ a₂ : α}
    (hparts : erase (parts a₁) = erase (parts a₂))
    (hrest : ∀ b, withParts b a₁ = withParts b a₂) : erase a₁ = erase a₂ := by
  show withParts (erase (parts a₁)) a₁ = withParts (erase (parts a₂)) a₂
  rw [hparts, hrest]

instance : Parts (CallableSlot ResolvedType) ResolvedType where
  parts p := p.type
  withParts t p := { p with type := t }

instance : Parts Template (Option ResolvedType × Option ResolvedType) where
  parts t := (t.bound, t.fallback)
  withParts p t := { t with bound := p.1, fallback := p.2 }

instance : Parts Constant (Option ResolvedType × Option ResolvedType) where
  parts c := (c.type, c.docType)
  withParts p c := { c with type := p.1, docType := p.2 }

instance : Parts Property (ResolvedType × Option ResolvedType) where
  parts p := (p.type, p.nativeType)
  withParts b p := { p with type := b.1, nativeType := b.2 }

instance : Parts Parameter (ResolvedType × ResolvedType) where
  parts p := (p.type, p.docType)
  withParts b p := { p with type := b.1, docType := b.2 }

instance : Parts Method (List Template × List Parameter × ResolvedType × ResolvedType ×
    List ResolvedType × Option ResolvedType × List ResolvedType) where
  parts m := (m.templates, m.params, m.returnType, m.returnDocType, m.throws, m.origin,
    m.interfaceOrigins)
  withParts b m := { m with
    templates := b.1
    params := b.2.1
    returnType := b.2.2.1
    returnDocType := b.2.2.2.1
    throws := b.2.2.2.2.1
    origin := b.2.2.2.2.2.1
    interfaceOrigins := b.2.2.2.2.2.2 }

instance (facet : Facet) : Linked facet.Answer :=
  match facet with
  | .doc => inferInstanceAs (Linked Document)
  | .templates => inferInstanceAs (Linked (List Template))
  | .parent => inferInstanceAs (Linked (Option ResolvedType))
  | .interfaces => inferInstanceAs (Linked (List ResolvedType))
  | .traits => inferInstanceAs (Linked (List ResolvedType))
  | .constants => inferInstanceAs (Linked (List Constant))
  | .properties => inferInstanceAs (Linked (List Property))
  | .methods => inferInstanceAs (Linked (List Method))

/-! ### Chapters -/

variable {reg : Registry}

/-- A chapter refers to itself. -/
instance : Linked (Chapter reg) where
  links c := [(c.id, c.name)]
  relink f c := { c with id := f c.id c.name }
  links_relink _ _ := rfl
  relink_relink _ _ _ := rfl
  relink_self _ := rfl
  relink_congr f g c h := by rw [h (c.id, c.name) (by simp)]

instance : Parts (Sheet reg) (Chapter reg × List Template × Option ResolvedType ×
    List ResolvedType × List ResolvedType × List Constant × List Property × List Method) where
  parts s := (s.chapter, s.templates, s.parent, s.interfaces, s.traits, s.constants, s.properties,
    s.methods)
  withParts b s := { s with
    chapter := b.1
    templates := b.2.1
    parent := b.2.2.1
    interfaces := b.2.2.2.1
    traits := b.2.2.2.2.1
    constants := b.2.2.2.2.2.1
    properties := b.2.2.2.2.2.2.1
    methods := b.2.2.2.2.2.2.2 }

instance : Parts (Summary reg) (Chapter reg) where
  parts s := s.chapter
  withParts c s := { s with chapter := c }

instance (inquiry : Inquiry reg) : Linked inquiry.Answer :=
  match inquiry with
  | .chapter _ => inferInstanceAs (Linked (Option (Chapter reg)))
  | .chapterOf _ => inferInstanceAs (Linked (Chapter reg))
  | .documented => inferInstanceAs (Linked (List (Chapter reg)))
  | .facet _ facet => inferInstanceAs (Linked (Except ResolveError facet.Answer))
  | .method .. => inferInstanceAs (Linked (Except ResolveError (Option Method)))
  | .type .. => inferInstanceAs (Linked (Except ResolveError ResolvedType))
  | .hint .. => inferInstanceAs (Linked ResolvedType)
  | .classPage .. => inferInstanceAs (Linked (Except ResolveError String))
  | .indexPage .. => inferInstanceAs (Linked String)

end PhpHandbook.Handbook
