import PhpHandbook.Proofs.Linked
import PhpHandbook.Proofs.MarkupTrees

/-!
# The pieces of a type on a page

A type is shown as a row of pieces, however deep it is: the names, brackets and separators are
texts, and the only elements are those of the classes and templates in it.  What holds of these
three holds of all that is shown of a type.

## Main definitions

* `eachPiece`: what is collected from a type, that of the types in it apart.

## Main statements

* `typeMarkups_eq`, `memberMarkups_eq`, `slotMarkups_eq`: the parts of a type, one by one.
* `forall_mem_typeMarkup`, `forall_mem_typeList`: what holds of all pieces of a type.
* `flatMap_typeMarkup`: what is collected from the pieces of a type, in the order of a walk through
  it.
-/

namespace PhpHandbook.Handbook

open Html

variable {reg : Registry} {page : String}

/-! ### Lists of types -/

theorem typeMarkups_eq (site : Site reg) (ts : List ResolvedType) :
    typeMarkups site page ts = ts.map (typeMarkup site page) := by
  induction ts with
  | nil => rw [typeMarkups, List.map_nil]
  | cons t ts ih => rw [typeMarkups, ih, List.map_cons]

theorem memberMarkups_eq (site : Site reg) (ts : List ResolvedType) :
    memberMarkups site page ts = ts.map fun t =>
      if t.isGrouped then .text "(" :: typeMarkup site page t ++ [Html.text ")"]
      else typeMarkup site page t := by
  induction ts with
  | nil => rw [memberMarkups, List.map_nil]
  | cons t ts ih => rw [memberMarkups, ih, List.map_cons]

theorem slotMarkups_eq (site : Site reg) (ps : List (CallableSlot ResolvedType)) :
    slotMarkups site page ps = ps.map fun p =>
      typeMarkup site page p.type ++ [slotMarks p.byRef p.variadic] := by
  induction ps with
  | nil => rw [slotMarkups, List.map_nil]
  | cons p ps ih => rw [slotMarkups, ih, List.map_cons]

/-! ### Pieces -/

section Pieces

variable {site : Site reg} {P : Html → Prop} (htext : ∀ s, P (.text s))
include htext

theorem forall_mem_genericMarkup {generics : List ResolvedType}
    (hgenerics : ∀ t ∈ generics, ∀ h ∈ typeMarkup site page t, P h) :
    ∀ h ∈ genericMarkup site page generics, P h := by
  have hinside : ∀ h ∈ separated ", " (typeMarkups site page generics), P h := by
    rw [typeMarkups_eq]
    exact forall_mem_separated (htext ", ") (List.forall_mem_map.2 hgenerics)
  rw [genericMarkup]
  split
  · exact fun _ hh => nomatch hh
  · exact List.forall_mem_cons.2 ⟨htext "<", List.forall_mem_append.2
      ⟨hinside, List.forall_mem_singleton.2 (htext ">")⟩⟩

theorem forall_mem_memberMarkups {separator : String} {members : List ResolvedType}
    (hmembers : ∀ t ∈ members, ∀ h ∈ typeMarkup site page t, P h) :
    ∀ h ∈ separated separator (memberMarkups site page members), P h := by
  rw [memberMarkups_eq]
  refine forall_mem_separated (htext separator) (List.forall_mem_map.2 fun t ht => ?_)
  split
  · exact List.forall_mem_cons.2 ⟨htext "(", List.forall_mem_append.2
      ⟨hmembers t ht, List.forall_mem_singleton.2 (htext ")")⟩⟩
  · exact hmembers t ht

theorem forall_mem_slotMarkups {params : List (CallableSlot ResolvedType)}
    (hparams : ∀ p ∈ params, ∀ h ∈ typeMarkup site page p.type, P h) :
    ∀ h ∈ separated ", " (slotMarkups site page params), P h := by
  rw [slotMarkups_eq]
  refine forall_mem_separated (htext ", ") (List.forall_mem_map.2 fun p hp => ?_)
  exact List.forall_mem_append.2 ⟨hparams p hp, List.forall_mem_singleton.2 (htext _)⟩

variable (hclass : ∀ id name, P (classMarkup site page id name))
  (htemplate : ∀ name, P (templateMarkup name))
include hclass htemplate

/-- **The pieces of a type** are texts, classes and templates. -/
theorem forall_mem_typeMarkup (t : ResolvedType) : ∀ h ∈ typeMarkup site page t, P h := by
  induction t using ResolvedType.induction with
  | named name generics ih =>
    rw [typeMarkup]
    exact List.forall_mem_cons.2 ⟨htext name, forall_mem_genericMarkup htext ih⟩
  | linked id name generics ih =>
    rw [typeMarkup]
    exact List.forall_mem_cons.2 ⟨hclass id name, forall_mem_genericMarkup htext ih⟩
  | template name =>
    rw [typeMarkup]
    exact List.forall_mem_singleton.2 (htemplate name)
  | union members ih =>
    rw [typeMarkup]
    exact forall_mem_memberMarkups htext ih
  | intersection members ih =>
    rw [typeMarkup]
    exact forall_mem_memberMarkups htext ih
  | callable name params returns hname hparams hreturns =>
    rw [typeMarkup]
    simpa only [List.forall_mem_append, List.forall_mem_cons, List.not_mem_nil, htext, true_and,
      false_imp_iff, implies_true, and_true, and_assoc]
      using ⟨hname, forall_mem_slotMarkups htext hparams, hreturns⟩
  | conditional subject target yes no htarget hyes hno =>
    rw [typeMarkup]
    simpa only [List.forall_mem_append, List.forall_mem_cons, List.not_mem_nil, htext, true_and,
      false_imp_iff, implies_true, and_true, and_assoc] using ⟨htarget, hyes, hno⟩

theorem forall_mem_typeList (types : List ResolvedType) :
    ∀ h ∈ typeList site page types, P h := by
  rw [typeList, typeMarkups_eq]
  exact forall_mem_separated (htext ", ")
    (List.forall_mem_map.2 fun t _ => forall_mem_typeMarkup htext hclass htemplate t)

end Pieces

/-! ### Collecting -/

/-- **What is collected from a type**, that of the types in it apart: something for a class, and
something for a template. -/
def eachPiece {β : Type} (ofClass : ChapterId → String → List β)
    (ofTemplate : String → List β) :
    ResolvedType → List β
  | .linked id name _ => ofClass id name
  | .template name => ofTemplate name
  | _ => []

section Collecting

variable {site : Site reg} {β : Type} {f : Html → List β} (htext : ∀ s, f (.text s) = [])
include htext

theorem flatMap_separated (separator : String) (pieces : List (List Html)) :
    (separated separator pieces).flatMap f = pieces.flatMap (·.flatMap f) := by
  induction pieces with
  | nil => rfl
  | cons piece pieces ih =>
    cases pieces with
    | nil => simp [separated]
    | cons next pieces =>
      rw [separated_cons_cons, List.flatMap_append, List.flatMap_cons, htext, List.nil_append, ih]
      exact List.flatMap_cons.symm

/-- Several types with a text between them, if the types are known. -/
theorem flatMap_typeMarkups {each : ResolvedType → List β} {ts : List ResolvedType}
    (h : ∀ t ∈ ts, (typeMarkup site page t).flatMap f = t.walk.flatMap each)
    (separator : String) :
    (separated separator (typeMarkups site page ts)).flatMap f
      = (ResolvedType.walkAll ts).flatMap each := by
  rw [flatMap_separated htext, typeMarkups_eq, List.flatMap_map, ResolvedType.walkAll_eq,
    List.flatMap_assoc]
  exact List.flatMap_congr h

theorem flatMap_genericMarkup {each : ResolvedType → List β} {generics : List ResolvedType}
    (h : ∀ t ∈ generics, (typeMarkup site page t).flatMap f = t.walk.flatMap each) :
    (genericMarkup site page generics).flatMap f
      = (ResolvedType.walkAll generics).flatMap each := by
  rw [genericMarkup]
  split
  next hempty =>
    obtain rfl := List.isEmpty_iff.1 hempty
    rfl
  · simp [htext, flatMap_typeMarkups htext h]

theorem flatMap_memberMarkups {each : ResolvedType → List β} {members : List ResolvedType}
    (h : ∀ t ∈ members, (typeMarkup site page t).flatMap f = t.walk.flatMap each)
    (separator : String) : (separated separator (memberMarkups site page members)).flatMap f
      = (ResolvedType.walkAll members).flatMap each := by
  rw [flatMap_separated htext, memberMarkups_eq, List.flatMap_map, ResolvedType.walkAll_eq,
    List.flatMap_assoc]
  refine List.flatMap_congr fun t ht => ?_
  split <;> simp [htext, h t ht]

theorem flatMap_slotMarkups {each : ResolvedType → List β}
    {params : List (CallableSlot ResolvedType)}
    (h : ∀ p ∈ params, (typeMarkup site page p.type).flatMap f = p.type.walk.flatMap each)
    (separator : String) : (separated separator (slotMarkups site page params)).flatMap f
      = (ResolvedType.walkSlots params).flatMap each := by
  rw [flatMap_separated htext, slotMarkups_eq, List.flatMap_map, ResolvedType.walkSlots_eq,
    List.flatMap_map, List.flatMap_assoc]
  refine List.flatMap_congr fun p hp => ?_
  simp [slotMarks, htext, h p hp]

/-- **What is collected from the pieces of a type** is collected from the types in it, in the order
of a walk through it. -/
theorem flatMap_typeMarkup (t : ResolvedType) :
    (typeMarkup site page t).flatMap f
      = t.walk.flatMap (eachPiece (fun id name => f (classMarkup site page id name))
          fun name => f (templateMarkup name)) := by
  induction t using ResolvedType.induction with
  | named name generics ih =>
    rw [typeMarkup, ResolvedType.walk, List.flatMap_cons, htext, flatMap_genericMarkup htext ih]
    rfl
  | linked id name generics ih =>
    rw [typeMarkup, ResolvedType.walk, List.flatMap_cons, flatMap_genericMarkup htext ih]
    rfl
  | template name =>
    rw [typeMarkup, ResolvedType.walk]
    rfl
  | union members ih =>
    rw [typeMarkup, ResolvedType.walk, flatMap_memberMarkups htext ih]
    rfl
  | intersection members ih =>
    rw [typeMarkup, ResolvedType.walk, flatMap_memberMarkups htext ih]
    rfl
  | callable name params returns hname hparams hreturns =>
    rw [typeMarkup, ResolvedType.walk]
    simp [htext, hname, hreturns, flatMap_slotMarkups htext hparams, eachPiece]
  | conditional subject target yes no htarget hyes hno =>
    rw [typeMarkup, ResolvedType.walk]
    simp [htext, htarget, hyes, hno, eachPiece]

end Collecting

end PhpHandbook.Handbook
