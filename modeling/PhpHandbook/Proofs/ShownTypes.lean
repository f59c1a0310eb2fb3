import PhpHandbook.Proofs.PageNesting
import PhpHandbook.Proofs.TaglessTexts

/-!
# What is seen of a type

A type is printed with tags around its classes and templates and with references for the characters
that would look like tags.  What is seen of it is its plain text, whatever characters the names in
it have: classes without their namespaces, arguments in angle brackets, members with marks between
them.  The tags that are not seen are those of the classes and templates in the type, one element
each, in the order in which a walk through the type comes past them.

## Main definitions

* `ResolvedType.shown`: the plain text of a type.
* `marks`: the tags of a type, those of the types in it apart.

## Main statements

* `textIn_typeMarkup`, `tagsIn_typeMarkup`: the text and the tags of a type, by induction over the
  type.
* `typeMarkup_seen`: what is seen of a type, and what is not.
-/

namespace PhpHandbook.Handbook

open Html
open Markup (Event Reads withoutTags decoded charsOf tagsOf)

/-! ### Plain texts and tags -/

namespace ResolvedType

mutual

/-- **The plain text** of a type: classes are told by the last part of their names. -/
def shown : ResolvedType → String
  | .named name generics => name ++ shownGenerics generics
  | .linked _ name generics => Text.lastPart '\\' name ++ shownGenerics generics
  | .template name => name
  | .union members => "|".intercalate (shownMembers members)
  | .intersection members => "&".intercalate (shownMembers members)
  | .callable name params returns =>
    name.shown ++ "(" ++ ", ".intercalate (shownSlots params) ++ "): " ++ returns.shown
  | .conditional subject target yes no =>
    "(" ++ subject ++ " is " ++ target.shown ++ " ? " ++ yes.shown ++ " : " ++ no.shown ++ ")"

/-- The plain text of the arguments of a type. -/
def shownGenerics : List ResolvedType → String
  | [] => ""
  | t :: ts => "<" ++ ", ".intercalate (t.shown :: shownAll ts) ++ ">"

/-- The plain texts of several types. -/
def shownAll : List ResolvedType → List String
  | [] => []
  | t :: ts => t.shown :: shownAll ts

/-- The plain texts of members: those with marks of their own stand in parentheses. -/
def shownMembers : List ResolvedType → List String
  | [] => []
  | t :: ts =>
    (match t with
      | .union _ | .intersection _ | .callable .. => "(" ++ t.shown ++ ")"
      | _ => t.shown) :: shownMembers ts

/-- The plain texts of the parameters of a callable. -/
def shownSlots : List (CallableSlot ResolvedType) → List String
  | [] => []
  | ⟨type, byRef, variadic⟩ :: params =>
    (type.shown ++ (if byRef then " &" else "") ++ (if variadic then "..." else "")) ::
      shownSlots params

end

theorem shownAll_eq (ts : List ResolvedType) : shownAll ts = ts.map shown := by
  induction ts with
  | nil => rw [shownAll, List.map_nil]
  | cons t ts ih => rw [shownAll, ih, List.map_cons]

theorem shownMembers_eq (ts : List ResolvedType) :
    shownMembers ts = ts.map fun t => if t.isGrouped then "(" ++ t.shown ++ ")" else t.shown := by
  induction ts with
  | nil => rw [shownMembers, List.map_nil]
  | cons t ts ih => cases t <;> simp [shownMembers, isGrouped, ih]

theorem shownSlots_eq (params : List (CallableSlot ResolvedType)) :
    shownSlots params = params.map fun p =>
      p.type.shown ++ (if p.byRef then " &" else "") ++ (if p.variadic then "..." else "") := by
  induction params with
  | nil => rw [shownSlots, List.map_nil]
  | cons p params ih => rw [shownSlots, ih, List.map_cons]

end ResolvedType

/-- **The tags of a type**, those of the types in it apart: a class is a link, or an abbreviation if
it has no link, and a template is marked as one. -/
def marks {reg : Registry} (site : Site reg) (page : String) : ResolvedType → List Event
  | .linked id name _ =>
    match site.link? id with
    | some url =>
      [.opening "a" [("href", site.links.href page url), ("title", name)], .closing "a"]
    | none => [.opening "abbr" [("title", name)], .closing "abbr"]
  | .template _ => [.opening "span" [("class", "template")], .closing "span"]
  | _ => []

variable {reg : Registry} (site : Site reg) (page : String)

/-! ### The text of a type -/

@[simp]
theorem textIn_classMarkup (id : ChapterId) (name : String) (more : List Html) :
    textIn (classMarkup site page id name :: more) = Text.lastPart '\\' name ++ textIn more := by
  unfold classMarkup
  split <;> simp

@[simp]
theorem textIn_templateMarkup (name : String) (more : List Html) :
    textIn (templateMarkup name :: more) = name ++ textIn more := by
  simp [templateMarkup, classed]

theorem textIn_genericMarkup {generics : List ResolvedType}
    (h : ∀ t ∈ generics, textIn (typeMarkup site page t) = t.shown) :
    textIn (genericMarkup site page generics) = ResolvedType.shownGenerics generics := by
  cases generics with
  | nil => rw [genericMarkup, ResolvedType.shownGenerics]; rfl
  | cons t ts =>
    have htexts : (t :: ts).map (textIn ∘ typeMarkup site page) = (t :: ts).map (·.shown) :=
      List.map_congr_left h
    rw [genericMarkup, if_neg (by simp), List.cons_append, textIn_text, textIn_append,
      textIn_separated, typeMarkups_eq, List.map_map, htexts, ResolvedType.shownGenerics,
      ResolvedType.shownAll_eq]
    simp [String.append_assoc]

theorem textIn_memberMarkups (separator : String) {members : List ResolvedType}
    (h : ∀ t ∈ members, textIn (typeMarkup site page t) = t.shown) :
    textIn (separated separator (memberMarkups site page members))
      = separator.intercalate (ResolvedType.shownMembers members) := by
  rw [textIn_separated, memberMarkups_eq, ResolvedType.shownMembers_eq, List.map_map]
  refine congrArg _ (List.map_congr_left fun t ht => ?_)
  simp only [Function.comp_apply]
  split <;> simp [h t ht, String.append_assoc]

theorem textIn_slotMarkups {params : List (CallableSlot ResolvedType)}
    (h : ∀ p ∈ params, textIn (typeMarkup site page p.type) = p.type.shown) :
    textIn (separated ", " (slotMarkups site page params))
      = ", ".intercalate (ResolvedType.shownSlots params) := by
  rw [textIn_separated, slotMarkups_eq, ResolvedType.shownSlots_eq, List.map_map]
  refine congrArg _ (List.map_congr_left fun p hp => ?_)
  simp [slotMarks, h p hp, String.append_assoc]

/-- **The text of a type on a page** is its plain text. -/
theorem textIn_typeMarkup (t : ResolvedType) : textIn (typeMarkup site page t) = t.shown := by
  induction t using ResolvedType.induction with
  | named name generics ih =>
    rw [typeMarkup, ResolvedType.shown, textIn_text, textIn_genericMarkup site page ih]
  | linked id name generics ih =>
    rw [typeMarkup, ResolvedType.shown, textIn_classMarkup, textIn_genericMarkup site page ih]
  | template name =>
    rw [typeMarkup, ResolvedType.shown, textIn_templateMarkup, textIn_nil, String.append_empty]
  | union members ih =>
    rw [typeMarkup, ResolvedType.shown, textIn_memberMarkups site page "|" ih]
  | intersection members ih =>
    rw [typeMarkup, ResolvedType.shown, textIn_memberMarkups site page "&" ih]
  | callable name params returns hname hparams hreturns =>
    rw [typeMarkup, ResolvedType.shown]
    simp [hname, hreturns, textIn_slotMarkups site page hparams, String.append_assoc]
  | conditional subject target yes no htarget hyes hno =>
    rw [typeMarkup, ResolvedType.shown]
    simp [htarget, hyes, hno, String.append_assoc]

/-! ### The tags of a type -/

/-- **The tags of a type on a page** are those of the types in it, in their order. -/
theorem tagsIn_typeMarkup (t : ResolvedType) :
    tagsIn (typeMarkup site page t) = t.walk.flatMap (marks site page) := by
  rw [tagsIn_eq_flatMap, flatMap_typeMarkup (fun s => by simp)]
  refine List.flatMap_congr fun u _ => ?_
  cases u with
  | linked id name generics =>
    cases hlink : site.link? id <;> simp [eachPiece, classMarkup, marks, hlink]
  | template name => simp [eachPiece, templateMarkup, classed, marks]
  | _ => rfl

/-! ### Seen and unseen -/

theorem leavesText_typeMarkup (t : ResolvedType) :
    ∀ h ∈ typeMarkup site page t, h.LeavesText := by
  refine forall_mem_typeMarkup leavesText_text (fun id name => ?_) (fun name => ?_) t
  · have htext : ∀ h ∈ [Html.text (Text.lastPart '\\' name)], h.LeavesText := by
      simp [leavesText_text]
    unfold classMarkup
    split
    · exact leavesText_element rfl htext
    · exact leavesText_element rfl htext
  · exact leavesText_element rfl (by simp [leavesText_text])

/-- **What is seen of a type on a page, and what is not.**  Whatever the names in a type are,
wherever links lead to, and on whatever page it is shown: if the tags in its printed form are left
out and characters are put for references, its plain text is left.  A strict reader comes past the
same text, and past no other tags than those of a link or an abbreviation for each class and of a
mark for each template, in the order in which they stand in the type. -/
theorem typeMarkup_seen (t : ResolvedType) :
    decoded (withoutTags (printAll (typeMarkup site page t))) = t.shown ∧
      ∃ events, Reads (printAll (typeMarkup site page t)) events ∧
        String.ofList (charsOf events) = t.shown ∧
        tagsOf events = t.walk.flatMap (marks site page) := by
  refine ⟨?_, _, reads_printAll (allSturdy_typeMarkup site page t), ?_, ?_⟩
  · rw [decoded_withoutTags (leavesText_typeMarkup site page t), textIn_typeMarkup]
  · exact textIn_typeMarkup site page t
  · exact tagsIn_typeMarkup site page t

/-- Classes, templates, members and parameters in plain text. -/
example : (ResolvedType.union [.linked ⟨0⟩ "App\\Box" [.template "T"],
    .callable (.plain "callable") [⟨.plain "int", true, true⟩] (.plain "void")]).shown
      = "Box<T>|(callable(int &...): void)" := by
  decide +kernel

end PhpHandbook.Handbook
