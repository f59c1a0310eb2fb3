import PhpHandbook.Declaration.FileReader

/-!
# Declarations without their places

Declarations carry the spans of all their parts.  Two files declare the same when they are equal
once every span is set to nothing: names, types, comments, source texts of values and the order of
all of these are compared, only the places are not.

## Main definitions

* `Spanned.withoutSpans`: a value with all its spans set to nothing.
* `Same`: two values that are equal without their spans.
-/

namespace PhpHandbook.Declaration

open Source (Span Token)

/-- A value in which all spans can be set to nothing. -/
class Spanned (α : Type) where
  /-- **The value without its spans.** -/
  withoutSpans : α → α

open Spanned (withoutSpans)

instance : Spanned Span where
  withoutSpans _ := ⟨0, 0⟩

/-! ### Values without places -/

instance : Spanned Unit := ⟨id⟩
instance : Spanned Bool := ⟨id⟩
instance : Spanned String := ⟨id⟩
instance : Spanned Visibility := ⟨id⟩
instance : Spanned Modifiers := ⟨id⟩
instance : Spanned ClassModifiers := ⟨id⟩
instance : Spanned ClassKind := ⟨id⟩
instance : Spanned ImportKind := ⟨id⟩

/-! ### Parts of declarations -/

section Instances

variable {α β : Type} [Spanned α] [Spanned β]

instance : Spanned (Option α) := ⟨Option.map withoutSpans⟩
instance : Spanned (List α) := ⟨List.map withoutSpans⟩
instance : Spanned (α × β) := ⟨Prod.map withoutSpans withoutSpans⟩

end Instances

instance : Spanned Token where
  withoutSpans t := { t with span := ⟨0, 0⟩ }

instance : Spanned Comment where
  withoutSpans c := { c with span := ⟨0, 0⟩ }

instance : Spanned Item where
  withoutSpans i := ⟨withoutSpans i.comments, withoutSpans i.token⟩

instance : Spanned Ident where
  withoutSpans i := { i with span := ⟨0, 0⟩ }

instance : Spanned Name where
  withoutSpans n := { n with span := ⟨0, 0⟩ }

mutual

/-- A native type without its spans. -/
def TypeHint.withoutSpans : TypeHint → TypeHint
  | .named name _ => .named (Spanned.withoutSpans name) ⟨0, 0⟩
  | .nullable inner _ => .nullable inner.withoutSpans ⟨0, 0⟩
  | .union members _ => .union (TypeHint.allWithoutSpans members) ⟨0, 0⟩
  | .intersection members _ => .intersection (TypeHint.allWithoutSpans members) ⟨0, 0⟩

/-- Several types without their spans. -/
def TypeHint.allWithoutSpans : List TypeHint → List TypeHint
  | [] => []
  | t :: ts => t.withoutSpans :: TypeHint.allWithoutSpans ts

end

instance : Spanned TypeHint := ⟨TypeHint.withoutSpans⟩

theorem TypeHint.allWithoutSpans_eq (ts : List TypeHint) :
    TypeHint.allWithoutSpans ts = Spanned.withoutSpans ts := by
  induction ts with
  | nil => rfl
  | cons t ts ih => exact congrArg (t.withoutSpans :: ·) ih

/-! ### Declarations -/

instance : Spanned Param where
  withoutSpans p :=
    { p with
      name := withoutSpans p.name, type := withoutSpans p.type, doc := withoutSpans p.doc
      span := ⟨0, 0⟩ }

instance : Spanned Constant where
  withoutSpans c :=
    { c with
      name := withoutSpans c.name, type := withoutSpans c.type, doc := withoutSpans c.doc
      span := ⟨0, 0⟩ }

instance : Spanned EnumCase where
  withoutSpans c :=
    { c with name := withoutSpans c.name, doc := withoutSpans c.doc, span := ⟨0, 0⟩ }

instance : Spanned Property where
  withoutSpans p :=
    { p with
      name := withoutSpans p.name, type := withoutSpans p.type, doc := withoutSpans p.doc
      span := ⟨0, 0⟩ }

instance : Spanned Method where
  withoutSpans m :=
    { m with
      name := withoutSpans m.name, params := withoutSpans m.params
      returnType := withoutSpans m.returnType, doc := withoutSpans m.doc, span := ⟨0, 0⟩ }

instance : Spanned Adaptation where
  withoutSpans
    | .rename traitName method visibility newName =>
      .rename (withoutSpans traitName) method visibility newName
    | .precedence traitName method insteadOf =>
      .precedence (withoutSpans traitName) method (withoutSpans insteadOf)

instance : Spanned TraitUse where
  withoutSpans u :=
    { traits := withoutSpans u.traits, adaptations := withoutSpans u.adaptations
      comments := withoutSpans u.comments, span := ⟨0, 0⟩ }

instance : Spanned Members where
  withoutSpans ms :=
    { traitUses := withoutSpans ms.traitUses, constants := withoutSpans ms.constants
      cases := withoutSpans ms.cases, properties := withoutSpans ms.properties
      methods := withoutSpans ms.methods }

instance : Spanned ClassLike where
  withoutSpans c :=
    { c with
      toMembers := withoutSpans c.toMembers, name := withoutSpans c.name
      parents := withoutSpans c.parents, implements := withoutSpans c.implements
      backingType := withoutSpans c.backingType, doc := withoutSpans c.doc, span := ⟨0, 0⟩ }

instance : Spanned Import where
  withoutSpans i := { i with span := ⟨0, 0⟩ }

instance : Spanned NamespaceBlock where
  withoutSpans b :=
    { b with
      span := ⟨0, 0⟩, imports := withoutSpans b.imports, classes := withoutSpans b.classes }

instance : Spanned SourceFile where
  withoutSpans f := ⟨withoutSpans f.blocks, ⟨0, 0⟩⟩

instance : Spanned Member where
  withoutSpans
    | .nothing => .nothing
    | .traitUse use => .traitUse (withoutSpans use)
    | .case case => .case (withoutSpans case)
    | .constants constants => .constants (withoutSpans constants)
    | .properties properties => .properties (withoutSpans properties)
    | .method method => .method (withoutSpans method)

/-! ### Sameness -/

/-- **The same but for places.** -/
def Same {α : Type} [Spanned α] (a b : α) : Prop :=
  withoutSpans a = withoutSpans b

namespace Same

variable {α β : Type} [Spanned α] [Spanned β]

theorem refl (a : α) : Same a a :=
  rfl

/-- What is left of two values without their places is equal in all its parts. -/
theorem congr {γ : Type} {a b : α} (h : Same a b) (f : α → γ) :
    f (withoutSpans a) = f (withoutSpans b) :=
  congrArg f h

theorem span (s t : Span) : Same s t :=
  rfl

theorem eq {a b : α} (h : Same a b) : withoutSpans a = withoutSpans b :=
  h

theorem prod {a₁ a₂ : α} {b₁ b₂ : β} (ha : Same a₁ a₂) (hb : Same b₁ b₂) :
    Same (a₁, b₁) (a₂, b₂) :=
  Prod.ext ha hb

theorem fst {x₁ x₂ : α × β} (h : Same x₁ x₂) : Same x₁.1 x₂.1 :=
  h.congr Prod.fst

theorem snd {x₁ x₂ : α × β} (h : Same x₁ x₂) : Same x₁.2 x₂.2 :=
  h.congr Prod.snd

theorem some {a₁ a₂ : α} (h : Same a₁ a₂) : Same (Option.some a₁) (Option.some a₂) :=
  congrArg Option.some h

theorem or {o₁ o₂ p₁ p₂ : Option α} (h : Same o₁ o₂) (hp : Same p₁ p₂) :
    Same (o₁.or p₁) (o₂.or p₂) := by
  show (o₁.or p₁).map withoutSpans = (o₂.or p₂).map withoutSpans
  rw [Option.map_or, Option.map_or, show o₁.map withoutSpans = o₂.map withoutSpans from h,
    show p₁.map withoutSpans = p₂.map withoutSpans from hp]

theorem map_eq {as₁ as₂ : List α} (h : Same as₁ as₂) :
    as₁.map withoutSpans = as₂.map withoutSpans :=
  h

theorem cons {a₁ a₂ : α} {as₁ as₂ : List α} (h : Same a₁ a₂) (hs : Same as₁ as₂) :
    Same (a₁ :: as₁) (a₂ :: as₂) := by
  show (a₁ :: as₁).map withoutSpans = (a₂ :: as₂).map withoutSpans
  rw [List.map_cons, List.map_cons, h.eq, hs.map_eq]

theorem append {as₁ as₂ bs₁ bs₂ : List α} (h : Same as₁ as₂) (hs : Same bs₁ bs₂) :
    Same (as₁ ++ bs₁) (as₂ ++ bs₂) := by
  show (as₁ ++ bs₁).map withoutSpans = (as₂ ++ bs₂).map withoutSpans
  rw [List.map_append, List.map_append, h.map_eq, hs.map_eq]

theorem reverse {as₁ as₂ : List α} (h : Same as₁ as₂) :
    Same as₁.reverse as₂.reverse := by
  show as₁.reverse.map withoutSpans = as₂.reverse.map withoutSpans
  rw [List.map_reverse, List.map_reverse, h.map_eq]

/-- Choosing by what places do not decide. -/
theorem find? {p : α → Bool} (hp : ∀ a, p (withoutSpans a) = p a) {as₁ as₂ : List α}
    (h : Same as₁ as₂) : Same (as₁.find? p) (as₂.find? p) := by
  have hfind (as : List α) : (as.find? p).map withoutSpans = (as.map withoutSpans).find? p := by
    rw [List.find?_map, show p ∘ withoutSpans = p from funext hp]
  show (as₁.find? p).map withoutSpans = (as₂.find? p).map withoutSpans
  rw [hfind, hfind, h.map_eq]

theorem filter {p : α → Bool} (hp : ∀ a, p (withoutSpans a) = p a) {as₁ as₂ : List α}
    (h : Same as₁ as₂) : Same (as₁.filter p) (as₂.filter p) := by
  have hfilter (as : List α) :
      (as.filter p).map withoutSpans = (as.map withoutSpans).filter p := by
    rw [List.filter_map, show p ∘ withoutSpans = p from funext hp]
  show (as₁.filter p).map withoutSpans = (as₂.filter p).map withoutSpans
  rw [hfilter, hfilter, h.map_eq]

theorem isEmpty_eq {as₁ as₂ : List α} (h : Same as₁ as₂) :
    as₁.isEmpty = as₂.isEmpty := by
  rw [← List.isEmpty_map, h.map_eq, List.isEmpty_map]

/-! Values that are made of parts are the same when their parts are. -/

theorem ident (name : String) (s t : Span) : Same (Ident.mk name s) ⟨name, t⟩ :=
  rfl

theorem ofText (text : String) (s t : Span) : Same (Name.ofText text s) (Name.ofText text t) := by
  unfold Name.ofText
  split <;> rfl

theorem option_eq {o₁ o₂ : Option String} (h : Same o₁ o₂) : o₁ = o₂ := by
  have hmap : o₁.map id = o₂.map id := h
  rwa [Option.map_id, id, id] at hmap

theorem text_eq {n₁ n₂ : Name} (h : Same n₁ n₂) : n₁.text = n₂.text :=
  h.congr Name.text

theorem union {ms₁ ms₂ : List TypeHint} {s t : Span} (h : Same ms₁ ms₂) :
    Same (TypeHint.union ms₁ s) (.union ms₂ t) := by
  show TypeHint.union (TypeHint.allWithoutSpans ms₁) ⟨0, 0⟩
    = TypeHint.union (TypeHint.allWithoutSpans ms₂) ⟨0, 0⟩
  rw [TypeHint.allWithoutSpans_eq, TypeHint.allWithoutSpans_eq, h.eq]

theorem intersection {ms₁ ms₂ : List TypeHint} {s t : Span} (h : Same ms₁ ms₂) :
    Same (TypeHint.intersection ms₁ s) (.intersection ms₂ t) := by
  show TypeHint.intersection (TypeHint.allWithoutSpans ms₁) ⟨0, 0⟩
    = TypeHint.intersection (TypeHint.allWithoutSpans ms₂) ⟨0, 0⟩
  rw [TypeHint.allWithoutSpans_eq, TypeHint.allWithoutSpans_eq, h.eq]

theorem nullable {t₁ t₂ : TypeHint} {s t : Span} (h : Same t₁ t₂) :
    Same (TypeHint.nullable t₁ s) (.nullable t₂ t) :=
  congrArg (TypeHint.nullable · ⟨0, 0⟩) h

theorem withSpan {t₁ t₂ : TypeHint} {s t : Span} (h : Same t₁ t₂) :
    Same (t₁.withSpan s) (t₂.withSpan t) := by
  have hstrip (t : TypeHint) (s : Span) : withoutSpans (t.withSpan s) = withoutSpans t := by
    cases t <;> rfl
  exact (hstrip t₁ s).trans (h.eq.trans (hstrip t₂ t).symm)

theorem param {p₁ p₂ : Param} (hname : Same p₁.name p₂.name)
    (htype : Same p₁.type p₂.type) (hfallback : p₁.fallback = p₂.fallback)
    (hbyRef : p₁.byRef = p₂.byRef) (hvariadic : p₁.variadic = p₂.variadic)
    (hpromoted : p₁.promoted = p₂.promoted) (hdoc : Same p₁.doc p₂.doc) :
    Same p₁ p₂ := by
  show Param.mk (withoutSpans p₁.name) (withoutSpans p₁.type) _ _ _ _
    (withoutSpans p₁.doc) ⟨0, 0⟩
    = Param.mk (withoutSpans p₂.name) (withoutSpans p₂.type) _ _ _ _
      (withoutSpans p₂.doc) ⟨0, 0⟩
  rw [hname.eq, htype.eq, hfallback, hbyRef, hvariadic, hpromoted, hdoc.eq]

theorem constant {c₁ c₂ : Constant} (hname : Same c₁.name c₂.name)
    (htype : Same c₁.type c₂.type) (hvalue : c₁.value = c₂.value)
    (hmodifiers : c₁.modifiers = c₂.modifiers) (hdoc : Same c₁.doc c₂.doc) :
    Same c₁ c₂ := by
  show Constant.mk (withoutSpans c₁.name) (withoutSpans c₁.type) _ _
    (withoutSpans c₁.doc) ⟨0, 0⟩
    = Constant.mk (withoutSpans c₂.name) (withoutSpans c₂.type) _ _
      (withoutSpans c₂.doc) ⟨0, 0⟩
  rw [hname.eq, htype.eq, hvalue, hmodifiers, hdoc.eq]

theorem enumCase {c₁ c₂ : EnumCase} (hname : Same c₁.name c₂.name)
    (hvalue : c₁.value = c₂.value) (hdoc : Same c₁.doc c₂.doc) : Same c₁ c₂ := by
  show EnumCase.mk (withoutSpans c₁.name) _ (withoutSpans c₁.doc) ⟨0, 0⟩
    = EnumCase.mk (withoutSpans c₂.name) _ (withoutSpans c₂.doc) ⟨0, 0⟩
  rw [hname.eq, hvalue, hdoc.eq]

theorem property {p₁ p₂ : Property} (hname : Same p₁.name p₂.name)
    (htype : Same p₁.type p₂.type) (hfallback : p₁.fallback = p₂.fallback)
    (hmodifiers : p₁.modifiers = p₂.modifiers) (hhooks : p₁.hasHooks = p₂.hasHooks)
    (hdoc : Same p₁.doc p₂.doc) : Same p₁ p₂ := by
  show Property.mk (withoutSpans p₁.name) (withoutSpans p₁.type) _ _ _
    (withoutSpans p₁.doc) ⟨0, 0⟩
    = Property.mk (withoutSpans p₂.name) (withoutSpans p₂.type) _ _ _
      (withoutSpans p₂.doc) ⟨0, 0⟩
  rw [hname.eq, htype.eq, hfallback, hmodifiers, hhooks, hdoc.eq]

theorem method {m₁ m₂ : Method} (hname : Same m₁.name m₂.name)
    (hmodifiers : m₁.modifiers = m₂.modifiers) (hparams : Same m₁.params m₂.params)
    (htype : Same m₁.returnType m₂.returnType)
    (hreference : m₁.returnsReference = m₂.returnsReference)
    (hbody : m₁.hasBody = m₂.hasBody) (hdoc : Same m₁.doc m₂.doc) : Same m₁ m₂ := by
  show Method.mk (withoutSpans m₁.name) _ (withoutSpans m₁.params)
      (withoutSpans m₁.returnType) _ _
      (withoutSpans m₁.doc) ⟨0, 0⟩
    = Method.mk (withoutSpans m₂.name) _ (withoutSpans m₂.params)
      (withoutSpans m₂.returnType) _ _
      (withoutSpans m₂.doc) ⟨0, 0⟩
  rw [hname.eq, hmodifiers, hparams.eq, htype.eq, hreference, hbody, hdoc.eq]

theorem traitUse {u₁ u₂ : TraitUse} (htraits : Same u₁.traits u₂.traits)
    (hadaptations : Same u₁.adaptations u₂.adaptations)
    (hcomments : Same u₁.comments u₂.comments) :
    Same u₁ u₂ := by
  show TraitUse.mk (withoutSpans u₁.traits) (withoutSpans u₁.adaptations)
    (withoutSpans u₁.comments) _
    = TraitUse.mk (withoutSpans u₂.traits) (withoutSpans u₂.adaptations)
      (withoutSpans u₂.comments) _
  rw [htraits.eq, hadaptations.eq, hcomments.eq]

theorem classLike {c₁ c₂ : ClassLike} (hmembers : Same c₁.toMembers c₂.toMembers)
    (hkind : c₁.kind = c₂.kind) (hname : Same c₁.name c₂.name)
    (hmodifiers : c₁.modifiers = c₂.modifiers) (hparents : Same c₁.parents c₂.parents)
    (himplements : Same c₁.implements c₂.implements)
    (htype : Same c₁.backingType c₂.backingType) (hdoc : Same c₁.doc c₂.doc) :
    Same c₁ c₂ := by
  show ClassLike.mk (withoutSpans c₁.toMembers) c₁.kind (withoutSpans c₁.name) c₁.modifiers
      (withoutSpans c₁.parents) (withoutSpans c₁.implements) (withoutSpans c₁.backingType)
      (withoutSpans c₁.doc) ⟨0, 0⟩
    = ClassLike.mk (withoutSpans c₂.toMembers) c₂.kind (withoutSpans c₂.name) c₂.modifiers
      (withoutSpans c₂.parents) (withoutSpans c₂.implements) (withoutSpans c₂.backingType)
      (withoutSpans c₂.doc) ⟨0, 0⟩
  rw [hmembers.eq, hkind, hname.eq, hmodifiers, hparents.eq, himplements.eq, htype.eq, hdoc.eq]

theorem block {b₁ b₂ : NamespaceBlock} (hname : b₁.name = b₂.name)
    (himports : Same b₁.imports b₂.imports) (hclasses : Same b₁.classes b₂.classes) :
    Same b₁ b₂ := by
  show NamespaceBlock.mk b₁.name ⟨0, 0⟩ (withoutSpans b₁.imports)
    (withoutSpans b₁.classes)
    = NamespaceBlock.mk b₂.name ⟨0, 0⟩ (withoutSpans b₂.imports) (withoutSpans b₂.classes)
  rw [hname, himports.eq, hclasses.eq]

theorem rename {t₁ t₂ : Option Name} (h : Same t₁ t₂) (method : String)
    (v : Option Visibility) (newName : Option String) :
    Same (Adaptation.rename t₁ method v newName) (.rename t₂ method v newName) :=
  congrArg (Adaptation.rename · method v newName) h.eq

theorem precedence {t₁ t₂ : Name} {ns₁ ns₂ : List Name} (h : Same t₁ t₂)
    (method : String) (hs : Same ns₁ ns₂) :
    Same (Adaptation.precedence t₁ method ns₁) (.precedence t₂ method ns₂) := by
  show Adaptation.precedence (withoutSpans t₁) method (withoutSpans ns₁)
    = Adaptation.precedence (withoutSpans t₂) method (withoutSpans ns₂)
  rw [h.eq, hs.eq]

end Same

end PhpHandbook.Declaration
